import Rtl88x2eu.Ie.Search

/-!
# Searches for a WPS attribute

`rtw_get_wps_attr` and `rtw_get_wps_attr_content`. An attribute has an id of 16 bits, the length of
its data in 16 bits, and the data. The step to the next attribute is computed in 16 bits as well,
so that a length of `0xfffc` is a step of nothing.

The functions are run for a number of passes; without a result, the loop has not ended.

## Main definitions

* `rtwGetWpsAttr`, `rtwGetWpsAttrContent`
* `AttrSafe`
* `Visited p n target t`, `AttrsWhole p n target`: the condition on the bytes

## Main results

* `attrSafe_iff`: the search is safe exactly if the attributes that it comes to are whole
* `not_attrSafe`: a loop without an end
-/

namespace Rtl88x2eu.Wps

open Walk Ie

def attrId (p : Bytes) (t : ℕ) : ℕ := p.be16 t

def attrDataLen (p : Bytes) (t : ℕ) : ℕ := p.be16 (t + 2)

/-- `attr_len`, a `u16`. -/
def attrLen (p : Bytes) (t : ℕ) : ℕ := (attrDataLen p t + 4) % 2 ^ 16

/-- A pass of the loop. -/
def attrBody (p : Bytes) (wpsIelen target : ℕ) : ℕ → ℕ ⊕ Option ℕ :=
  searchBody (fun t => t < wpsIelen) (fun t => attrId p t = target) fun t => t + attrLen p t

/-- The addresses that a pass reads; the attribute is copied if there is a buffer for it. -/
def attrLog (p : Bytes) (wpsIelen target : ℕ) (bufAttr : Bool) (t : ℕ) : List ℕ :=
  if t < wpsIelen then
    List.range' t 4 ++
      if attrId p t = target ∧ bufAttr then List.range' t (attrLen p t) else []
  else []

def isWps (wpsIe : Bytes) : Bool := wpsIe.u8 0 = wlanEidVendorSpecific && wpsIe.read 2 4 = wpsOui

/-- What `rtw_get_wps_attr` returns: the address, and `*len_attr`. -/
structure WpsAttr where
  ptr : Option ℕ
  lenAttr : ℕ

/-- `rtw_get_wps_attr`, with at most `fuel` passes. -/
def rtwGetWpsAttr (fuel : ℕ) (wpsIe : Bytes) (wpsIelen target : ℕ) : Option WpsAttr :=
  if !isWps wpsIe then some ⟨none, 0⟩
  else
    (Loop.iterate (attrBody wpsIe wpsIelen target) fuel 6).map fun found =>
      ⟨found, found.elim 0 (attrLen wpsIe)⟩

def rtwGetWpsAttrReads (fuel : ℕ) (wpsIe : Bytes) (wpsIelen target : ℕ) (bufAttr : Bool) :
    List ℕ :=
  [0] ++ (if wpsIe.u8 0 = wlanEidVendorSpecific then List.range' 2 4 else []) ++
    if !isWps wpsIe then []
    else Loop.trace (attrLog wpsIe wpsIelen target bufAttr) (attrBody wpsIe wpsIelen target) fuel 6

/-- What `rtw_get_wps_attr_content` returns: the address and `*len_content`, and what it copies. -/
structure WpsContent where
  ptr : Option ℕ
  lenContent : Option ℕ
  copied : List ℕ

/-- `rtw_get_wps_attr_content`; the subtraction is one of 32 bits. -/
def rtwGetWpsAttrContent (fuel : ℕ) (wpsIe : Bytes) (wpsIelen target : ℕ) (bufContent : Bool)
    (lenContent : Option ℕ) : Option WpsContent :=
  (rtwGetWpsAttr fuel wpsIe wpsIelen target).map fun a =>
    match a.ptr with
    | none => ⟨none, lenContent.map fun _ => 0, []⟩
    | some t =>
      if a.lenAttr = 0 then ⟨none, lenContent.map fun _ => 0, []⟩
      else
        let rest := (a.lenAttr + 2 ^ 32 - 4) % 2 ^ 32
        let lenContent := lenContent.map fun len =>
          if (bufContent && rest < len) || !bufContent then rest else len
        ⟨some (t + 4), lenContent,
          if bufContent then List.range' (t + 4) (lenContent.getD 1) else []⟩

/-! ## What is asked -/

/-- **The search ends and stays inside**, what it finds is a whole attribute, and only data of the
attribute are copied. -/
structure AttrSafe (p : Bytes) (n target : ℕ) (bufAttr bufContent : Bool)
    (lenContent : Option ℕ) : Prop where
  ends : ∃ fuel, (rtwGetWpsAttr fuel p n target).isSome
  reads : ∀ fuel, ∀ a ∈ rtwGetWpsAttrReads fuel p n target bufAttr, a < n
  whole : ∀ fuel r, rtwGetWpsAttr fuel p n target = some r → ∀ t ∈ r.ptr,
    t + (4 + attrDataLen p t) ≤ n ∧ r.lenAttr = 4 + attrDataLen p t
  content : ∀ fuel r, rtwGetWpsAttr fuel p n target = some r →
    ∀ c, rtwGetWpsAttrContent fuel p n target bufContent lenContent = some c →
      ∀ a ∈ c.copied, ∃ t ∈ r.ptr, t + 4 ≤ a ∧ a < t + (4 + attrDataLen p t)

inductive Visited (p : Bytes) (n target : ℕ) : ℕ → Prop
  | first : Visited p n target 6
  | next {t : ℕ} (h : Visited p n target t) (hlt : t < n) (hid : attrId p t ≠ target) :
      Visited p n target (t + attrLen p t)

structure AttrWhole (p : Bytes) (n target t : ℕ) : Prop where
  header : t + 4 ≤ n
  step : attrId p t ≠ target → attrDataLen p t ≠ 0xfffc
  found : attrId p t = target → attrDataLen p t < 0xfffc ∧ t + (4 + attrDataLen p t) ≤ n

/-- **The attributes are whole** that the search of a WPS element comes to. -/
def AttrsWhole (p : Bytes) (n target : ℕ) : Prop :=
  isWps p → ∀ t, Visited p n target t → t < n → AttrWhole p n target t

def OneByte (p : Bytes) (n target : ℕ) : Prop :=
  isWps p → ∀ t, Visited p n target t → t < n → attrId p t = target → 0 < attrDataLen p t

variable {p : Bytes} {n target t : ℕ} {bufAttr bufContent : Bool} {lenContent : Option ℕ}

theorem be16_lt (p : Bytes) (i : ℕ) : p.be16 i < 2 ^ 16 := by
  have h₁ := (p.u8 i).toNat_lt
  have h₂ := (p.u8 (i + 1)).toNat_lt
  unfold Bytes.be16
  omega

theorem attrLen_of_lt (h : attrDataLen p t < 0xfffc) : attrLen p t = 4 + attrDataLen p t := by
  unfold attrLen
  omega

theorem attrLen_pos (h : attrDataLen p t ≠ 0xfffc) : 0 < attrLen p t := by
  have hlt : attrDataLen p t < 2 ^ 16 := be16_lt p (t + 2)
  unfold attrLen
  omega

theorem attrBody_eq_inl {t' : ℕ} : attrBody p n target t = .inl t' ↔
    (t < n ∧ attrId p t ≠ target) ∧ t + attrLen p t = t' := by
  simp [attrBody, searchBody_eq_inl]

theorem attrBody_eq_some {t' : ℕ} : attrBody p n target t = .inr (some t') ↔
    (t < n ∧ attrId p t = target) ∧ t = t' := by
  simp [attrBody, searchBody_eq_some]

theorem reaches_iff_visited :
    Loop.Reaches (attrBody p n target) 6 t ↔ Visited p n target t := by
  constructor
  · intro h
    refine h.invariant (fun s s' hs hbody => ?_) .first
    obtain ⟨⟨hlt, hid⟩, rfl⟩ := attrBody_eq_inl.mp hbody
    exact hs.next hlt hid
  · intro h
    induction h with
    | first => exact .refl 6
    | next _ hlt hid ih => exact ih.tail (attrBody_eq_inl.mpr ⟨⟨hlt, hid⟩, rfl⟩)

theorem rtwGetWpsAttr_of_isWps (hwps : isWps p = true) (fuel : ℕ) :
    rtwGetWpsAttr fuel p n target =
      (Loop.iterate (attrBody p n target) fuel 6).map fun found =>
        ⟨found, found.elim 0 (attrLen p)⟩ := by
  unfold rtwGetWpsAttr
  rw [hwps, if_neg (by decide)]

/-- Another element has no attributes. -/
theorem rtwGetWpsAttr_of_not_isWps (hwps : isWps p = false) (fuel : ℕ) :
    rtwGetWpsAttr fuel p n target = some ⟨none, 0⟩ := by
  unfold rtwGetWpsAttr
  rw [hwps]
  rfl

/-- **What is found** is an attribute with the id that the search comes to. -/
theorem visited_of_found {fuel : ℕ} {r : WpsAttr} (hr : rtwGetWpsAttr fuel p n target = some r)
    (ht : t ∈ r.ptr) :
    isWps p = true ∧ (Visited p n target t ∧ t < n ∧ attrId p t = target) ∧
      r.lenAttr = attrLen p t := by
  cases hwps : isWps p with
  | false =>
    rw [rtwGetWpsAttr_of_not_isWps hwps] at hr
    obtain rfl := Option.some.inj hr
    cases ht
  | true =>
    rw [rtwGetWpsAttr_of_isWps hwps] at hr
    obtain ⟨found, hfound, rfl⟩ := Option.map_eq_some_iff.mp hr
    obtain ⟨u, hu, hleft⟩ := Loop.exists_iterate_iff.mp ⟨fuel, hfound⟩
    obtain rfl : found = some t := ht
    obtain ⟨⟨hlt, hid⟩, rfl⟩ := attrBody_eq_some.mp hleft
    exact ⟨rfl, ⟨reaches_iff_visited.mp hu, hlt, hid⟩, rfl⟩

theorem found_of_visited (hwps : isWps p = true) (ht : Visited p n target t) (hlt : t < n)
    (hid : attrId p t = target) :
    ∃ fuel, rtwGetWpsAttr fuel p n target = some ⟨some t, attrLen p t⟩ := by
  obtain ⟨fuel, hfuel⟩ := Loop.exists_iterate_iff.mpr
    ⟨t, reaches_iff_visited.mpr ht, attrBody_eq_some.mpr ⟨⟨hlt, hid⟩, rfl⟩⟩
  refine ⟨fuel, ?_⟩
  rw [rtwGetWpsAttr_of_isWps hwps, hfuel]
  rfl

theorem mem_attrLog {a : ℕ} (ha : a ∈ attrLog p n target bufAttr t) :
    t < n ∧ (a < t + 4 ∨ attrId p t = target ∧ a < t + attrLen p t) := by
  unfold attrLog at ha
  split_ifs at ha with hlt hcopy
  · refine ⟨hlt, ?_⟩
    rcases List.mem_append.mp ha with ha | ha
    · exact .inl (List.mem_range'_1.mp ha).2
    · exact .inr ⟨hcopy.1, (List.mem_range'_1.mp ha).2⟩
  · rw [List.append_nil] at ha
    exact ⟨hlt, .inl (List.mem_range'_1.mp ha).2⟩
  · cases ha

/-! ## When the search is safe -/

theorem AttrSafe.attrWhole (h : AttrSafe p n target bufAttr bufContent lenContent)
    (hwps : isWps p = true) (ht : Visited p n target t) (hlt : t < n) :
    AttrWhole p n target t := by
  refine ⟨?_, fun hid hlen => ?_, fun hid => ?_⟩
  · -- the last byte of the header
    have hlog : t + 3 ∈ attrLog p n target bufAttr t := by
      unfold attrLog
      rw [if_pos hlt]
      exact List.mem_append_left _ (List.mem_range'_1.mpr (by omega))
    obtain ⟨fuel, hfuel⟩ := Loop.exists_mem_trace (reaches_iff_visited.mpr ht) hlog
    have hread : t + 3 ∈ rtwGetWpsAttrReads fuel p n target bufAttr := by
      unfold rtwGetWpsAttrReads
      rw [hwps]
      exact List.mem_append_right _ hfuel
    exact h.reads fuel (t + 3) hread
  · -- a step of nothing
    have hzero : attrLen p t = 0 := by
      unfold attrLen
      omega
    have hstuck : attrBody p n target t = .inl t := attrBody_eq_inl.mpr ⟨⟨hlt, hid⟩, by omega⟩
    obtain ⟨fuel, hfuel⟩ := h.ends
    rw [rtwGetWpsAttr_of_isWps hwps,
      Loop.iterate_of_stuck (reaches_iff_visited.mpr ht) hstuck] at hfuel
    cases hfuel
  · obtain ⟨fuel, hfuel⟩ := found_of_visited hwps ht hlt hid
    obtain ⟨hend, hlen⟩ := h.whole fuel _ hfuel t rfl
    have hlenAttr : attrLen p t = 4 + attrDataLen p t := hlen
    have hlt16 : attrLen p t < 2 ^ 16 := Nat.mod_lt _ (by decide)
    exact ⟨by omega, hend⟩

theorem AttrSafe.oneByte (h : AttrSafe p n target bufAttr true none) : OneByte p n target := by
  intro hwps t ht hlt hid
  have hlen := attrLen_of_lt ((h.attrWhole hwps ht hlt).found hid).1
  obtain ⟨fuel, hfuel⟩ := found_of_visited hwps ht hlt hid
  have hcontent : rtwGetWpsAttrContent fuel p n target true none =
      some ⟨some (t + 4), none, [t + 4]⟩ := by
    unfold rtwGetWpsAttrContent
    rw [hfuel, Option.map_some]
    dsimp only
    rw [if_neg (by omega)]
    rfl
  obtain ⟨u, hu, -, hdata⟩ := h.content fuel _ hfuel _ hcontent (t + 4) List.mem_cons_self
  obtain rfl := Option.some.inj hu
  omega

/-- Where the attributes are whole, the search ends. -/
theorem AttrsWhole.ends (h : AttrsWhole p n target) :
    ∃ fuel, (rtwGetWpsAttr fuel p n target).isSome := by
  cases hwps : isWps p with
  | false => exact ⟨0, by rw [rtwGetWpsAttr_of_not_isWps hwps]; rfl⟩
  | true =>
    have hmeasure : ∀ t t', Loop.Reaches (attrBody p n target) 6 t →
        attrBody p n target t = .inl t' → n - t' < n - t := by
      intro t t' ht hbody
      obtain ⟨⟨hlt, hid⟩, rfl⟩ := attrBody_eq_inl.mp hbody
      have hstep := attrLen_pos ((h hwps t (reaches_iff_visited.mp ht) hlt).step hid)
      omega
    obtain ⟨fuel, found, hfuel⟩ := Loop.exists_iterate_of_measure (fun t => n - t) hmeasure
    exact ⟨fuel, by rw [rtwGetWpsAttr_of_isWps hwps, hfuel]; rfl⟩

theorem AttrsWhole.reads (h : AttrsWhole p n target) (hn : 6 ≤ n) (fuel : ℕ) :
    ∀ a ∈ rtwGetWpsAttrReads fuel p n target bufAttr, a < n := by
  intro a ha
  rcases List.mem_append.mp ha with ha | ha
  · rcases List.mem_append.mp ha with ha | ha
    · have hzero := List.mem_singleton.mp ha
      omega
    · split_ifs at ha
      · have hoid := (List.mem_range'_1.mp ha).2
        omega
      · cases ha
  · cases hwps : isWps p with
    | false =>
      rw [hwps] at ha
      cases ha
    | true =>
      rw [hwps] at ha
      obtain ⟨t, ht, hlog⟩ := Loop.exists_reaches_of_mem_trace ha
      obtain ⟨hlt, hrange⟩ := mem_attrLog hlog
      have hwhole := h hwps t (reaches_iff_visited.mp ht) hlt
      rcases hrange with hhead | ⟨hid, hcopy⟩
      · exact hhead.trans_le hwhole.header
      · obtain ⟨hlen, hend⟩ := hwhole.found hid
        rw [attrLen_of_lt hlen] at hcopy
        omega

/-- Only data of the attribute are copied. -/
theorem AttrsWhole.content (h : AttrsWhole p n target)
    (hone : bufContent = true → lenContent = none → OneByte p n target) {fuel : ℕ} {r : WpsAttr}
    (hr : rtwGetWpsAttr fuel p n target = some r) {c : WpsContent}
    (hc : rtwGetWpsAttrContent fuel p n target bufContent lenContent = some c) {a : ℕ}
    (ha : a ∈ c.copied) : ∃ t ∈ r.ptr, t + 4 ≤ a ∧ a < t + (4 + attrDataLen p t) := by
  unfold rtwGetWpsAttrContent at hc
  rw [hr, Option.map_some] at hc
  obtain rfl := Option.some.inj hc
  cases hptr : r.ptr with
  | none =>
    rw [hptr] at ha
    cases ha
  | some t =>
    obtain ⟨hwps, ⟨ht, hlt, hid⟩, hlenAttr⟩ := visited_of_found hr hptr
    have hdata := ((h hwps t ht hlt).found hid).1
    rw [attrLen_of_lt hdata] at hlenAttr
    rw [hptr] at ha
    dsimp only at ha
    rw [hlenAttr, if_neg (by omega)] at ha
    have hrest : (4 + attrDataLen p t + 2 ^ 32 - 4) % 2 ^ 32 = attrDataLen p t := by omega
    rw [hrest] at ha
    refine ⟨t, rfl, ?_⟩
    cases bufContent with
    | false => cases ha
    | true =>
      have hrange := List.mem_range'_1.mp ha
      refine ⟨hrange.1, hrange.2.trans_le ?_⟩
      cases lenContent with
      | none =>
        have hpos := hone rfl rfl hwps t ht hlt hid
        dsimp only [Option.map_none, Option.getD_none]
        omega
      | some len =>
        dsimp only [Option.map_some, Option.getD_some]
        split_ifs with hcut
        · omega
        · simp only [Bool.true_and, Bool.not_true, Bool.or_false, decide_eq_true_iff] at hcut
          omega

/-- **The search for an attribute is safe** exactly if the attributes that it comes to are whole,
and the one that is found has data where one byte is copied unseen. -/
theorem attrSafe_iff (p : Bytes) (target : ℕ) (bufAttr bufContent : Bool) (lenContent : Option ℕ)
    (hn : 6 ≤ n) :
    AttrSafe p n target bufAttr bufContent lenContent ↔
      AttrsWhole p n target ∧ (bufContent = true → lenContent = none → OneByte p n target) := by
  constructor
  · intro h
    refine ⟨fun hwps t ht hlt => h.attrWhole hwps ht hlt, ?_⟩
    rintro rfl rfl
    exact h.oneByte
  · rintro ⟨h, hone⟩
    refine ⟨h.ends, h.reads hn, fun fuel r hr t ht => ?_, fun fuel r hr c hc a ha => ?_⟩
    · obtain ⟨hwps, ⟨hvisited, hlt, hid⟩, hlen⟩ := visited_of_found hr ht
      obtain ⟨hdata, hend⟩ := (h hwps t hvisited hlt).found hid
      exact ⟨hend, hlen.trans (attrLen_of_lt hdata)⟩
    · exact h.content hone hr hc ha

/-- An element with the attribute `0x1044`, of one byte. -/
def wpsState : Bytes := [0xdd, 9, 0x00, 0x50, 0xf2, 0x04, 0x10, 0x44, 0, 1, 2]

theorem attrSafe_wpsState : AttrSafe wpsState 11 0x1044 true true (some 8) := by
  refine (attrSafe_iff wpsState 0x1044 true true (some 8) (by decide)).mpr ⟨?_, by rintro - ⟨⟩⟩
  intro _ t ht hlt
  have hfirst : t = 6 := by
    clear hlt
    induction ht with
    | first => rfl
    | next _ _ hid ih =>
      rw [ih] at hid
      exact absurd (by decide) hid
  rw [hfirst]
  exact ⟨by decide, fun hid => absurd (by decide) hid, fun _ => by decide⟩

/-- **A length of `0xfffc`** keeps the search where it is. -/
theorem not_attrSafe :
    ¬∀ (p : Bytes) (n target : ℕ), 6 ≤ n → n ≤ p.length →
      AttrSafe p n target false false none := by
  intro h
  have hsafe := h [0xdd, 8, 0x00, 0x50, 0xf2, 0x04, 0, 1, 0xff, 0xfc] 10 0x1044 (by decide)
    (by decide)
  have hwhole := hsafe.attrWhole (by decide) .first (by decide)
  exact hwhole.step (by decide) (by decide)

end Rtl88x2eu.Wps
