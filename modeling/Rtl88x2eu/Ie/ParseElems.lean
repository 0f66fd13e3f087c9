import Rtl88x2eu.Ie.Elements
import Rtl88x2eu.Lib.Loop

/-!
# Parsing the elements of a management frame

`rtw_ieee802_11_parse_elems` goes through a buffer of elements and notes for every kind where the
last body of that kind is. Vendor specific elements are told apart by what their bodies begin with.

## Main definitions

* `rtwIeee80211ParseElems`, `rtwIeee80211ParseVendorSpecific`
* `Elem.kind`, `Parsed`, `Last`

## Main results

* `vendor_eq_kind`: the vendor parser
* `exists_noted`
* `parseElems_law`: the result of the parser, and where it found what
-/

namespace Rtl88x2eu.Ie

/-! ## The parser -/

/-- The pointers of `struct rtw_ieee802_11_elems`. -/
inductive ElemKind
  | ssid | suppRates | fhParams | dsParams | cfParams | tim | ibssParams | challenge | erpInfo
  | extSuppRates | wpaIe | rsnIe | wme | wmeTspec | wpsIe | powerCap | suppChannels | mdie | ftie
  | timeoutInt | htCapabilities | htOperation | vendorHtCap | vhtCapabilities | vhtOperation
  | vhtOpModeNotify | rmEnCap | preq | prep | perr | rann
deriving DecidableEq

/-- `struct rtw_ieee802_11_elems`: offsets and lengths. -/
abbrev Elems := ElemKind → Option (ℕ × ℕ)

inductive ParseRes
  | ok | unknown | failed
deriving DecidableEq

/-- The ids of `WLAN_EID_*` that have a pointer of their own. -/
def idKinds : List (UInt8 × ElemKind) :=
  [(0, .ssid), (1, .suppRates), (2, .fhParams), (3, .dsParams), (4, .cfParams), (5, .tim),
    (6, .ibssParams), (16, .challenge), (42, .erpInfo), (50, .extSuppRates), (48, .rsnIe),
    (33, .powerCap), (36, .suppChannels), (54, .mdie), (55, .ftie), (56, .timeoutInt),
    (45, .htCapabilities), (61, .htOperation), (191, .vhtCapabilities), (192, .vhtOperation),
    (199, .vhtOpModeNotify), (70, .rmEnCap)]

/-- The ids that a build with `CONFIG_RTW_MESH` knows too. -/
def meshIdKinds : List (UInt8 × ElemKind) :=
  [(130, .preq), (131, .prep), (132, .perr), (126, .rann)]

def idKind (mesh : Bool) (id : UInt8) : Option ElemKind :=
  (if mesh then idKinds ++ meshIdKinds else idKinds).lookup id

def be24 (p : Bytes) (pos : ℕ) : ℕ :=
  (p.u8 pos).toNat * 65536 + (p.u8 (pos + 1)).toNat * 256 + (p.u8 (pos + 2)).toNat

def ouiMicrosoft : ℕ := 0x0050f2

def ouiBroadcom : ℕ := 0x00904c

/-- `rtw_ieee802_11_parse_vendor_specific`: the bytes that it reads, and the pointer that it sets;
without one it returns -1. -/
def rtwIeee80211ParseVendorSpecific (p : Bytes) (pos elen : ℕ) : List ℕ × Option ElemKind :=
  if elen < 4 then ([], none)
  else
    let reads := [pos, pos + 1, pos + 2, pos + 3]
    if be24 p pos = ouiMicrosoft then
      if p.u8 (pos + 3) = 1 then (reads, some .wpaIe)
      else if p.u8 (pos + 3) = 2 then
        if elen < 5 then (reads, none)
        else
          let reads := reads ++ [pos + 4]
          if p.u8 (pos + 4) = 0 ∨ p.u8 (pos + 4) = 1 then (reads, some .wme)
          else if p.u8 (pos + 4) = 2 then (reads, some .wmeTspec)
          else (reads, none)
      else if p.u8 (pos + 3) = 4 then (reads, some .wpsIe)
      else (reads, none)
    else if be24 p pos = ouiBroadcom then
      if p.u8 (pos + 3) = 0x33 then (reads, some .vendorHtCap) else (reads, none)
    else ([pos, pos + 1, pos + 2], none)

/-- The variables of the loop. -/
structure ParseState where
  pos : ℕ
  left : ℕ
  elems : Elems
  unknown : ℕ

/-- The switch over the ids; without a kind the element is counted as unknown. -/
def kindAt (mesh : Bool) (p : Bytes) (pos : ℕ) : Option ElemKind :=
  if p.u8 pos = wlanEidVendorSpecific then
    (rtwIeee80211ParseVendorSpecific p (pos + 2) (bodyLen p pos)).2
  else idKind mesh (p.u8 pos)

/-- The element at the position of the loop is noted. -/
def ParseState.next (mesh : Bool) (p : Bytes) (s : ParseState) : ParseState where
  pos := s.pos + 2 + bodyLen p s.pos
  left := s.left - 2 - bodyLen p s.pos
  elems :=
    match kindAt mesh p s.pos with
    | some kind => Function.update s.elems kind (some (s.pos + 2, bodyLen p s.pos))
    | none => s.elems
  unknown := if kindAt mesh p s.pos = none then s.unknown + 1 else s.unknown

/-- What is returned behind the loop. -/
def ParseState.result (s : ParseState) : ParseRes :=
  if s.left ≠ 0 then .failed else if s.unknown ≠ 0 then .unknown else .ok

/-- One pass of the loop. -/
def parseBody (mesh : Bool) (p : Bytes) (s : ParseState) : ParseState ⊕ (ParseRes × Elems) :=
  if s.left < 2 then .inr (s.result, s.elems)
  else if s.left - 2 < bodyLen p s.pos then .inr (.failed, s.elems)
  else .inl (s.next mesh p)

def parseReads (p : Bytes) (s : ParseState) : List ℕ :=
  if s.left < 2 then []
  else
    [s.pos, s.pos + 1] ++
      if s.left - 2 < bodyLen p s.pos then []
      else if p.u8 s.pos = wlanEidVendorSpecific then
        (rtwIeee80211ParseVendorSpecific p (s.pos + 2) (bodyLen p s.pos)).1
      else []

def parseStart (p : Bytes) : ParseState :=
  { pos := 0, left := p.length, elems := fun _ => none, unknown := 0 }

/-- `rtw_ieee802_11_parse_elems`, with a bound on its passes. -/
def rtwIeee80211ParseElems (mesh : Bool) (fuel : ℕ) (p : Bytes) : Option (ParseRes × Elems) :=
  Loop.iterate (parseBody mesh p) fuel (parseStart p)

def rtwIeee80211ParseElemsReads (mesh : Bool) (fuel : ℕ) (p : Bytes) : List ℕ :=
  Loop.trace (parseReads p) (parseBody mesh p) fuel (parseStart p)

def vendorKinds : List (Bytes × ElemKind) :=
  [([0x00, 0x50, 0xf2, 1], .wpaIe), ([0x00, 0x50, 0xf2, 2, 0], .wme),
    ([0x00, 0x50, 0xf2, 2, 1], .wme), ([0x00, 0x50, 0xf2, 2, 2], .wmeTspec),
    ([0x00, 0x50, 0xf2, 4], .wpsIe), ([0x00, 0x90, 0x4c, 0x33], .vendorHtCap)]

def vendorKind (body : Bytes) : Option ElemKind :=
  (vendorKinds.find? fun x => x.1.isPrefixOf body).map Prod.snd

/-- **The kind of an element.** -/
def Elem.kind (mesh : Bool) (e : Elem) : Option ElemKind :=
  if e.id = wlanEidVendorSpecific then vendorKind e.body else idKind mesh e.id

/-- **The elements `L` are parsed**: no other one is complete. -/
structure Parsed (p : Bytes) (L : List Elem) (rest : Bytes) : Prop where
  split : p = encode L ++ rest
  incomplete : rest.length < 2 + bodyLen rest 0 ∨ rest.length < 2

/-- **The last element of a kind** has its body at `q`, with `n` bytes. -/
def Last (mesh : Bool) (L : List Elem) (k : ElemKind) (q n : ℕ) : Prop :=
  ∃ A e B, L = A ++ e :: B ∧ e.kind mesh = some k ∧ (∀ x ∈ B, x.kind mesh ≠ some k) ∧
    q = (encode A).length + 2 ∧ n = e.body.length

/-! ## The vendor parser -/

variable {mesh : Bool} {p pre rest : Bytes} {L : List Elem} {e : Elem} {s s' : ParseState}
  {k : ElemKind} {q n : ℕ}

theorem vendor_reads_lt {a pos elen : ℕ}
    (ha : a ∈ (rtwIeee80211ParseVendorSpecific p pos elen).1) : a < pos + elen := by
  generalize hx : rtwIeee80211ParseVendorSpecific p pos elen = x at ha
  unfold rtwIeee80211ParseVendorSpecific at hx
  by_cases hfour : elen < 4
  · rw [if_pos hfour] at hx
    subst hx
    cases ha
  rw [if_neg hfour] at hx
  dsimp only at hx
  have hthree : ∀ a ∈ [pos, pos + 1, pos + 2], a < pos + elen := by simp; omega
  have hreads : ∀ a ∈ [pos, pos + 1, pos + 2, pos + 3], a < pos + elen := by simp; omega
  have hsubtype (hfive : ¬elen < 5) :
      ∀ a ∈ [pos, pos + 1, pos + 2, pos + 3] ++ [pos + 4], a < pos + elen := by simp; omega
  by_cases hms : be24 p pos = ouiMicrosoft
  · rw [if_pos hms] at hx
    by_cases h2 : p.u8 (pos + 3) = 2
    · by_cases hfive : elen < 5
      · rw [h2, if_neg (by decide), if_pos rfl, if_pos hfive] at hx
        subst hx
        exact hreads a ha
      · rw [h2, if_neg (by decide), if_pos rfl, if_neg hfive] at hx
        refine hsubtype hfive a ?_
        split_ifs at hx <;> (subst hx; exact ha)
    · rw [if_neg h2] at hx
      refine hreads a ?_
      split_ifs at hx <;> (subst hx; exact ha)
  · rw [if_neg hms] at hx
    by_cases hbc : be24 p pos = ouiBroadcom
    · rw [if_pos hbc] at hx
      refine hreads a ?_
      split_ifs at hx <;> (subst hx; exact ha)
    · rw [if_neg hbc] at hx
      subst hx
      exact hthree a ha

theorem be24_cons (a b c : UInt8) (r : Bytes) (x y z : UInt8) :
    be24 (a :: b :: c :: r) 0 = x.toNat * 65536 + y.toNat * 256 + z.toNat ↔
      a = x ∧ b = y ∧ c = z := by
  change a.toNat * 65536 + b.toNat * 256 + c.toNat = _ ↔ _
  have hb := b.toNat_lt
  have hc := c.toNat_lt
  have hy := y.toNat_lt
  have hz := z.toNat_lt
  rw [← UInt8.toNat_inj, ← UInt8.toNat_inj, ← UInt8.toNat_inj]
  omega

theorem microsoft_iff (a b c : UInt8) (r : Bytes) :
    be24 (a :: b :: c :: r) 0 = ouiMicrosoft ↔ a = 0x00 ∧ b = 0x50 ∧ c = 0xf2 :=
  be24_cons a b c r 0x00 0x50 0xf2

theorem broadcom_iff (a b c : UInt8) (r : Bytes) :
    be24 (a :: b :: c :: r) 0 = ouiBroadcom ↔ a = 0x00 ∧ b = 0x90 ∧ c = 0x4c :=
  be24_cons a b c r 0x00 0x90 0x4c

theorem vendorKind_eq_none {body : Bytes} (h : ∀ x ∈ vendorKinds, ¬x.1 <+: body) :
    vendorKind body = none := by
  refine Option.map_eq_none_iff.mpr (List.find?_eq_none.mpr fun x hx hprefix => ?_)
  exact h x hx (List.isPrefixOf_iff_prefix.mp hprefix)

theorem vendorKind_cons (a b c d : UInt8) (r : Bytes) :
    vendorKind (a :: b :: c :: d :: r) =
      if a = 0x00 ∧ b = 0x50 ∧ c = 0xf2 then
        if d = 1 then some .wpaIe
        else if d = 2 then
          if r.head? = some 0 ∨ r.head? = some 1 then some .wme
          else if r.head? = some 2 then some .wmeTspec else none
        else if d = 4 then some .wpsIe else none
      else if (a = 0x00 ∧ b = 0x90 ∧ c = 0x4c) ∧ d = 0x33 then some .vendorHtCap else none := by
  by_cases hms : a = 0x00 ∧ b = 0x50 ∧ c = 0xf2
  · obtain ⟨rfl, rfl, rfl⟩ := hms
    by_cases h1 : d = 1
    · subst h1; rfl
    by_cases h2 : d = 2
    · subst h2
      cases r with
      | nil => rfl
      | cons e r =>
        by_cases h0 : e = 0
        · subst h0; rfl
        by_cases h1 : e = 1
        · subst h1; rfl
        by_cases h2 : e = 2
        · subst h2; rfl
        rw [vendorKind_eq_none (by simp [vendorKinds, Ne.symm h0, Ne.symm h1, Ne.symm h2])]
        simp [h0, h1, h2]
    by_cases h4 : d = 4
    · subst h4; rfl
    rw [vendorKind_eq_none (by simp [vendorKinds, Ne.symm h1, Ne.symm h2, Ne.symm h4])]
    simp [h1, h2, h4]
  · rw [if_neg hms]
    by_cases hbc : (a = 0x00 ∧ b = 0x90 ∧ c = 0x4c) ∧ d = 0x33
    · obtain ⟨⟨rfl, rfl, rfl⟩, rfl⟩ := hbc
      rfl
    rw [if_neg hbc]
    refine vendorKind_eq_none fun x hx hprefix => ?_
    simp only [vendorKinds, List.mem_cons, List.not_mem_nil, or_false] at hx
    rcases hx with rfl | rfl | rfl | rfl | rfl | rfl <;>
      simp only [List.cons_prefix_cons] at hprefix <;> grind

theorem vendorKind_short {body : Bytes} (h : body.length < 4) : vendorKind body = none := by
  refine vendorKind_eq_none fun x hx hprefix => ?_
  have hlen := hprefix.length_le
  have hfour : ∀ y ∈ vendorKinds, 4 ≤ y.1.length := by decide
  exact absurd (hfour x hx) (by omega)

/-- **The vendor parser** finds the kind of a body. -/
theorem vendor_eq_kind {body : Bytes} {pos : ℕ}
    (hbody : ∀ i < body.length, p.u8 (pos + i) = body.u8 i) :
    (rtwIeee80211ParseVendorSpecific p pos body.length).2 = vendorKind body := by
  generalize hx : rtwIeee80211ParseVendorSpecific p pos body.length = x
  unfold rtwIeee80211ParseVendorSpecific at hx
  by_cases hfour : body.length < 4
  · rw [if_pos hfour] at hx
    rw [vendorKind_short hfour, ← hx]
  obtain ⟨a, b, c, d, r, rfl⟩ : ∃ a b c d r, body = a :: b :: c :: d :: r := by
    match body, hfour with
    | [], h | [_], h | [_, _], h | [_, _, _], h => exact absurd (by simp) h
    | a :: b :: c :: d :: r, _ => exact ⟨a, b, c, d, r, rfl⟩
  have hbe : be24 p pos = be24 (a :: b :: c :: d :: r) 0 := by
    have h0 := hbody 0 (by simp)
    have h1 := hbody 1 (by simp)
    have h2 := hbody 2 (by simp)
    unfold be24
    rw [← Nat.add_zero pos, h0, h1, h2]
  have h3 : p.u8 (pos + 3) = d := hbody 3 (by simp)
  rw [if_neg hfour] at hx
  dsimp only at hx
  rw [vendorKind_cons, ← hx, hbe, h3]
  simp only [microsoft_iff, broadcom_iff, ite_and, apply_ite Prod.snd]
  cases r with
  | nil =>
    have hnone (x : UInt8) : ([] : Bytes).head? = some x ↔ False := by simp
    have hfive : [a, b, c, d].length < 5 := by simp
    simp only [if_pos hfive, hnone, or_self, if_false]
  | cons e r =>
    have h4 : p.u8 (pos + 4) = e := hbody 4 (by simp)
    have hfive : ¬(a :: b :: c :: d :: e :: r).length < 5 := by simp
    simp only [h4, if_neg hfive, List.head?_cons, Option.some.injEq]

theorem kindAt_eq (mesh : Bool) (pre : Bytes) (e : Elem) (rest : Bytes) :
    kindAt mesh (pre ++ (e.bytes ++ rest)) pre.length = e.kind mesh := by
  unfold kindAt Elem.kind
  rw [u8_bytes, bodyLen_bytes]
  refine if_congr Iff.rfl (vendor_eq_kind fun i hi => ?_) rfl
  rw [Nat.add_assoc, u8_append_right, Bytes.u8_append (by rw [Elem.length_bytes]; omega),
    Nat.add_comm]
  rfl

/-- A buffer that begins with a complete element. -/
theorem exists_elem (htwo : 2 ≤ rest.length) (hbody : 2 + bodyLen rest 0 ≤ rest.length) :
    ∃ (e : Elem) (rest' : Bytes), rest = e.bytes ++ rest' := by
  match rest, htwo with
  | id :: len :: r, _ =>
    change 2 + len.toNat ≤ r.length + 2 at hbody
    have hlen : (r.take len.toNat).length = len.toNat := by
      rw [List.length_take]
      omega
    refine ⟨⟨id, r.take len.toNat, hlen.trans_lt len.toNat_lt⟩, r.drop len.toNat, ?_⟩
    have hbyte : UInt8.ofNat (r.take len.toNat).length = len := by rw [hlen, UInt8.ofNat_toNat]
    change _ = id :: UInt8.ofNat (r.take len.toNat).length :: (r.take len.toNat ++ r.drop len.toNat)
    rw [hbyte, List.take_append_drop]

theorem elem_bytes_inj {e' : Elem} {rest' : Bytes} (h : e.bytes ++ rest = e'.bytes ++ rest') :
    e = e' ∧ rest = rest' := by
  obtain ⟨hid, h⟩ := List.cons.inj h
  obtain ⟨hlen, h⟩ := List.cons.inj h
  have hlen : e.body.length = e'.body.length := by
    rw [← toNat_length e, ← toNat_length e', hlen]
  obtain ⟨hbody, hrest⟩ := List.append_inj h hlen
  obtain ⟨id, body, short⟩ := e
  obtain ⟨id', body', short'⟩ := e'
  obtain rfl : id = id' := hid
  obtain rfl : body = body' := hbody
  exact ⟨rfl, hrest⟩

theorem Parsed.not_bytes (h : Parsed p L rest) (e : Elem) (rest' : Bytes) :
    rest ≠ e.bytes ++ rest' := by
  rintro rfl
  have hbody := bodyLen_bytes [] e rest'
  have hincomplete := h.incomplete
  change bodyLen (e.bytes ++ rest') 0 = _ at hbody
  rw [hbody, List.length_append, Elem.length_bytes] at hincomplete
  omega

/-- **The parsed elements are unique.** -/
theorem Parsed.unique {L' : List Elem} {rest' : Bytes} (h : Parsed p L rest)
    (h' : Parsed p L' rest') : L = L' ∧ rest = rest' := by
  induction L generalizing p L' with
  | nil =>
    cases L' with
    | nil => exact ⟨rfl, h.split.symm.trans h'.split⟩
    | cons e' L' =>
      refine absurd ?_ (h.not_bytes e' (encode L' ++ rest'))
      rw [← List.append_assoc, ← encode_cons]
      exact h.split.symm.trans h'.split
  | cons e L ih =>
    cases L' with
    | nil =>
      refine absurd ?_ (h'.not_bytes e (encode L ++ rest))
      rw [← List.append_assoc, ← encode_cons]
      exact h'.split.symm.trans h.split
    | cons e' L' =>
      have heq := h.split.symm.trans h'.split
      rw [encode_cons, encode_cons, List.append_assoc, List.append_assoc] at heq
      obtain ⟨rfl, htail⟩ := elem_bytes_inj heq
      obtain ⟨rfl, hrest⟩ := ih ⟨rfl, h.incomplete⟩ ⟨htail, h'.incomplete⟩
      exact ⟨rfl, hrest⟩

theorem not_last_nil : ¬Last mesh [] k q n := by
  rintro ⟨A, e, B, hnil, -⟩
  exact List.append_ne_nil_of_right_ne_nil A (List.cons_ne_nil e B) hnil.symm

theorem last_snoc_self (hkind : e.kind mesh = some k) :
    Last mesh (L ++ [e]) k q n ↔ q = (encode L).length + 2 ∧ n = e.body.length := by
  constructor
  · rintro ⟨A, x, B, hL, hx, hB, rfl, rfl⟩
    rcases List.eq_nil_or_concat B with rfl | ⟨B, y, rfl⟩
    · obtain ⟨rfl, hxe⟩ := List.append_inj' hL rfl
      obtain rfl := List.singleton_inj.mp hxe
      exact ⟨rfl, rfl⟩
    · rw [List.concat_eq_append, ← List.cons_append, ← List.append_assoc] at hL
      obtain ⟨-, hye⟩ := List.append_inj' hL rfl
      obtain rfl := List.singleton_inj.mp hye
      exact absurd hkind (hB _ (by simp))
  · rintro ⟨rfl, rfl⟩
    exact ⟨L, e, [], rfl, hkind, by simp, rfl, rfl⟩

theorem last_snoc_other (hkind : e.kind mesh ≠ some k) :
    Last mesh (L ++ [e]) k q n ↔ Last mesh L k q n := by
  constructor
  · rintro ⟨A, x, B, hL, hx, hB, rfl, rfl⟩
    rcases List.eq_nil_or_concat B with rfl | ⟨B, y, rfl⟩
    · obtain ⟨-, hxe⟩ := List.append_inj' hL rfl
      obtain rfl := List.singleton_inj.mp hxe
      exact absurd hx hkind
    · rw [List.concat_eq_append, ← List.cons_append, ← List.append_assoc] at hL
      obtain ⟨rfl, -⟩ := List.append_inj' hL rfl
      exact ⟨A, x, B, rfl, hx, fun z hz => hB z (by simp [hz]), rfl, rfl⟩
  · rintro ⟨A, x, B, rfl, hx, hB, rfl, rfl⟩
    refine ⟨A, x, B ++ [e], by simp, hx, ?_, rfl, rfl⟩
    intro z hz
    rcases List.mem_append.mp hz with hz | hz
    · exact hB z hz
    · obtain rfl := List.mem_singleton.mp hz
      exact hkind

/-! ## The loop -/

/-- Where each kind was found. -/
def Denotes (mesh : Bool) (L : List Elem) (elems : Elems) : Prop :=
  ∀ k q n, elems k = some (q, n) ↔ Last mesh L k q n

/-- **The elements `L` are noted**, and the loop stands behind them. -/
structure Noted (mesh : Bool) (p : Bytes) (s : ParseState) (L : List Elem) (rest : Bytes) :
    Prop where
  split : p = encode L ++ rest
  pos : s.pos = (encode L).length
  left : s.left = rest.length
  unknown : s.unknown = 0 ↔ ∀ e ∈ L, e.kind mesh ≠ none
  elems : Denotes mesh L s.elems

theorem noted_parseStart (mesh : Bool) (p : Bytes) : Noted mesh p (parseStart p) [] p where
  split := rfl
  pos := rfl
  left := rfl
  unknown := by simp [parseStart]
  elems _ _ _ := ⟨nofun, fun h => absurd h not_last_nil⟩

/-- The next element is noted. -/
theorem Noted.next (h : Noted mesh p s L (e.bytes ++ rest)) :
    Noted mesh p (s.next mesh p) (L ++ [e]) rest := by
  have hsplit := h.split
  have hkind : kindAt mesh p s.pos = e.kind mesh := by rw [h.pos, hsplit, kindAt_eq]
  have hlen : bodyLen p s.pos = e.body.length := by rw [h.pos, hsplit, bodyLen_bytes]
  have hleft := h.left
  rw [List.length_append, Elem.length_bytes] at hleft
  refine ⟨by simp [hsplit], ?_, ?_, ?_, ?_⟩
  · change s.pos + 2 + bodyLen p s.pos = _
    rw [hlen, h.pos, encode_append, List.length_append, encode_cons, encode_nil, List.append_nil,
      Elem.length_bytes]
    omega
  · change s.left - 2 - bodyLen p s.pos = _
    omega
  · change (if kindAt mesh p s.pos = none then s.unknown + 1 else s.unknown) = 0 ↔ _
    rw [hkind, List.forall_mem_append, ← h.unknown, List.forall_mem_singleton]
    by_cases hnone : e.kind mesh = none
    · simp [hnone]
    · simp [hnone]
  · intro k q n
    change (match kindAt mesh p s.pos with
      | some kind => Function.update s.elems kind (some (s.pos + 2, bodyLen p s.pos))
      | none => s.elems) k = some (q, n) ↔ _
    rw [hkind, hlen]
    cases hk : e.kind mesh with
    | none => rw [last_snoc_other (by rw [hk]; exact nofun), h.elems]
    | some kind =>
      dsimp only
      by_cases heq : k = kind
      · subst heq
        rw [Function.update_self, last_snoc_self hk, h.pos, Option.some.injEq, Prod.mk.injEq,
          eq_comm, eq_comm (a := e.body.length)]
      · rw [Function.update_of_ne heq, h.elems,
          last_snoc_other (by rw [hk, ne_eq, Option.some.injEq]; exact Ne.symm heq)]

theorem Noted.bodyLen_eq (h : Noted mesh p s L rest) : bodyLen p s.pos = bodyLen rest 0 := by
  unfold bodyLen
  rw [h.pos, h.split, u8_append_right]

theorem Noted.parseBody_inl (h : Noted mesh p s L rest) (hbody : parseBody mesh p s = .inl s') :
    ∃ e rest', Noted mesh p s' (L ++ [e]) rest' := by
  unfold parseBody at hbody
  by_cases htwo : s.left < 2
  · rw [if_pos htwo] at hbody
    cases hbody
  rw [if_neg htwo] at hbody
  by_cases hlong : s.left - 2 < bodyLen p s.pos
  · rw [if_pos hlong] at hbody
    cases hbody
  rw [if_neg hlong] at hbody
  obtain rfl := Sum.inl.inj hbody
  rw [h.bodyLen_eq] at hlong
  rw [h.left] at htwo hlong
  obtain ⟨e, rest', rfl⟩ := exists_elem (not_lt.mp htwo) (by omega)
  exact ⟨e, rest', h.next⟩

structure Law (mesh : Bool) (p : Bytes) (r : ParseRes × Elems) (L : List Elem) (rest : Bytes) :
    Prop where
  parsed : Parsed p L rest
  failed : r.1 = .failed ↔ rest ≠ []
  unknown : r.1 = .unknown ↔ rest = [] ∧ ∃ e ∈ L, e.kind mesh = none
  elems : Denotes mesh L r.2

theorem Noted.result (h : Noted mesh p s L rest) :
    (s.result = .failed ↔ rest ≠ []) ∧
      (s.result = .unknown ↔ rest = [] ∧ ∃ e ∈ L, e.kind mesh = none) := by
  have hunknown := h.unknown
  have hleft := h.left
  unfold ParseState.result
  cases rest with
  | nil =>
    rw [if_neg (by simp [hleft])]
    by_cases hzero : s.unknown = 0
    · have hall := hunknown.mp hzero
      rw [if_neg (not_not.mpr hzero)]
      refine ⟨by simp, iff_of_false (by simp) ?_⟩
      rintro ⟨-, e, he, hnone⟩
      exact hall e he hnone
    · have hsome : ∃ e ∈ L, e.kind mesh = none := by
        by_contra hall
        exact hzero (hunknown.mpr fun e he hnone => hall ⟨e, he, hnone⟩)
      rw [if_pos hzero]
      exact ⟨by simp, iff_of_true rfl ⟨rfl, hsome⟩⟩
  | cons b r =>
    rw [if_pos (by simp [hleft])]
    simp

theorem Noted.parseBody_inr {r : ParseRes × Elems} (h : Noted mesh p s L rest)
    (hbody : parseBody mesh p s = .inr r) : Law mesh p r L rest := by
  unfold parseBody at hbody
  by_cases htwo : s.left < 2
  · rw [if_pos htwo] at hbody
    obtain rfl := Sum.inr.inj hbody
    rw [h.left] at htwo
    exact ⟨⟨h.split, .inr htwo⟩, h.result.1, h.result.2, h.elems⟩
  rw [if_neg htwo] at hbody
  by_cases hlong : s.left - 2 < bodyLen p s.pos
  · rw [if_pos hlong] at hbody
    obtain rfl := Sum.inr.inj hbody
    rw [h.bodyLen_eq] at hlong
    rw [h.left] at htwo hlong
    have hne : rest ≠ [] := by
      rintro rfl
      exact htwo (by simp)
    exact ⟨⟨h.split, .inl (by omega)⟩, by simp [hne], by simp [hne], h.elems⟩
  · rw [if_neg hlong] at hbody
    cases hbody

/-- Every state of the loop has noted the elements in front of it. -/
theorem exists_noted (h : Loop.Reaches (parseBody mesh p) (parseStart p) s) :
    ∃ L rest, Noted mesh p s L rest := by
  refine h.invariant (I := fun s => ∃ L rest, Noted mesh p s L rest) ?_
    ⟨[], p, noted_parseStart mesh p⟩
  rintro s s' ⟨L, rest, hs⟩ hbody
  obtain ⟨e, rest', hs'⟩ := hs.parseBody_inl hbody
  exact ⟨L ++ [e], rest', hs'⟩

/-- **The state in which the loop is left.** -/
theorem law_of_iterate {r : ParseRes × Elems} (h : rtwIeee80211ParseElems mesh n p = some r) :
    ∃ L rest, Law mesh p r L rest := by
  obtain ⟨s, hs, hbody⟩ := Loop.exists_iterate_iff.mp ⟨n, h⟩
  obtain ⟨L, rest, hnoted⟩ := exists_noted hs
  exact ⟨L, rest, hnoted.parseBody_inr hbody⟩

theorem isSome_parse (mesh : Bool) (h : p.length < n) :
    (rtwIeee80211ParseElems mesh n p).isSome := by
  refine Loop.isSome_iterate ParseState.left (fun s s' hbody => ?_) h
  unfold parseBody at hbody
  split_ifs at hbody with htwo hlong
  obtain rfl := Sum.inl.inj hbody
  change s.left - 2 - bodyLen p s.pos < s.left
  omega

theorem reads_lt {a : ℕ} (ha : a ∈ rtwIeee80211ParseElemsReads mesh n p) : a < p.length := by
  obtain ⟨s, hs, ha⟩ := Loop.exists_reaches_of_mem_trace ha
  obtain ⟨L, rest, hnoted⟩ := exists_noted hs
  have hlen : p.length = s.pos + s.left := by
    rw [hnoted.split, List.length_append, hnoted.pos, hnoted.left]
  unfold parseReads at ha
  split_ifs at ha with htwo hlong hid
  · cases ha
  · simp only [List.append_nil, List.mem_cons, List.not_mem_nil, or_false] at ha
    omega
  · rcases List.mem_append.mp ha with hhead | hvendor
    · simp only [List.mem_cons, List.not_mem_nil, or_false] at hhead
      omega
    · have hlt := vendor_reads_lt hvendor
      omega
  · simp only [List.append_nil, List.mem_cons, List.not_mem_nil, or_false] at ha
    omega

structure ElemsLaw (mesh : Bool) (p : Bytes) (r : ParseRes × Elems) : Prop where
  failed : r.1 = .failed ↔ ¬∃ L, p = encode L
  unknown : r.1 = .unknown ↔ ∃ L, p = encode L ∧ ∃ e ∈ L, e.kind mesh = none
  parsed : ∃ L rest, Parsed p L rest
  elems : ∀ L rest, Parsed p L rest → Denotes mesh L r.2
  inside : ∀ k q n, r.2 k = some (q, n) → q + n ≤ p.length

theorem parsed_encode (L : List Elem) : Parsed (encode L) L [] :=
  ⟨(List.append_nil _).symm, .inr (by decide)⟩

theorem Last.inside (h : Last mesh L k q n) : q + n ≤ (encode L).length := by
  obtain ⟨A, e, B, rfl, -, -, rfl, rfl⟩ := h
  simp only [encode_append, encode_cons, List.length_append, Elem.length_bytes]
  omega

theorem Law.elemsLaw {r : ParseRes × Elems} (h : Law mesh p r L rest) : ElemsLaw mesh p r := by
  have hconcat : (∃ L, p = encode L) ↔ rest = [] := by
    constructor
    · rintro ⟨L', rfl⟩
      exact (h.parsed.unique (parsed_encode L')).2
    · rintro rfl
      exact ⟨L, by rw [h.parsed.split, List.append_nil]⟩
  refine ⟨by rw [h.failed, hconcat], ?_, ⟨L, rest, h.parsed⟩, ?_, ?_⟩
  · rw [h.unknown]
    constructor
    · rintro ⟨rfl, hsome⟩
      exact ⟨L, by rw [h.parsed.split, List.append_nil], hsome⟩
    · rintro ⟨L', rfl, hsome⟩
      obtain ⟨rfl, hrest⟩ := h.parsed.unique (parsed_encode L')
      exact ⟨hrest, hsome⟩
  · intro L' rest' h'
    obtain ⟨rfl, -⟩ := h.parsed.unique h'
    exact h.elems
  · intro k q n hk
    have hlast := ((h.elems k q n).mp hk).inside
    rw [h.parsed.split, List.length_append]
    omega

/-- **The parser and the elements of a buffer**: its result, its pointers, and what it reads. -/
theorem parseElems_law (mesh : Bool) (p : Bytes) :
    (∀ fuel, p.length < fuel →
      ∃ r, rtwIeee80211ParseElems mesh fuel p = some r ∧ ElemsLaw mesh p r) ∧
    (∀ fuel, ∀ a ∈ rtwIeee80211ParseElemsReads mesh fuel p, a < p.length) ∧
    ∀ pos elen, ∀ a ∈ (rtwIeee80211ParseVendorSpecific p pos elen).1, a < pos + elen := by
  refine ⟨fun fuel hfuel => ?_, fun _ _ => reads_lt, fun _ _ _ => vendor_reads_lt⟩
  obtain ⟨r, hr⟩ := Option.isSome_iff_exists.mp (isSome_parse mesh hfuel)
  obtain ⟨L, rest, hlaw⟩ := law_of_iterate hr
  exact ⟨r, hr, hlaw.elemsLaw⟩

example :
    (rtwIeee80211ParseElems false 13 [0, 1, 65, 221, 5, 0x00, 0x50, 0xf2, 2, 0, 7, 0]).map
      (fun r => (r.1, r.2 .ssid, r.2 .wme, r.2 .rsnIe)) =
        some (.unknown, some (2, 1), some (5, 5), none) := by
  decide

end Rtl88x2eu.Ie
