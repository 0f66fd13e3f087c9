import Rtl88x2eu.Lib.Walk
import Rtl88x2eu.Recv.Attrib

/-!
# Searches for an information element

`rtw_get_ie`, `rtw_get_ie_ex` and `rtw_get_wps_ie` of `rtw_ieee80211.c`. Each goes from element to
element by the length bytes, up to the first element that has the id and, if an OUI is given, the
OUI. None of them looks whether an element ends inside the buffer.

The outcome of a search has the addresses that are read. `memcmp` reads all bytes that it is given.

## Main definitions

* `IeSearch`
* `rtwGetIe`, `rtwGetIeEx`, `rtwGetWpsIe`
* `Inside`, `Uncut`

## Main results

* `inside_outcome_iff`: one search
* `ieSearches_inside_iff`: a search stays inside exactly if it comes to no element that is cut off
* `not_ieSearches_inside`: an id without a length
-/

namespace Rtl88x2eu

namespace Bytes

def read (p : Bytes) (i n : ℕ) : Bytes := (List.range n).map fun k => p.u8 (i + k)

end Bytes

namespace Ie

open Walk

def maxIeSz : ℕ := 768

def wlanEidVendorSpecific : UInt8 := 221

def wpsOui : Bytes := [0x00, 0x50, 0xf2, 0x04]

/-- The length byte of the element at `q`. -/
def bodyLen (p : Bytes) (q : ℕ) : ℕ := (p.u8 (q + 1)).toNat

def elemNext (p : Bytes) (q : ℕ) : ℕ := q + (bodyLen p q + 2)

structure Matches (p : Bytes) (eid : UInt8) (oui : Bytes) (q : ℕ) : Prop where
  id : p.u8 q = eid
  long : oui.length ≤ bodyLen p q
  oui : p.read (q + 2) oui.length = oui

/-! ## The searches -/

/-- What is looked for, and how. -/
structure IeSearch where
  eid : UInt8
  /-- `NULL` is the empty list: `memcmp` of no bytes finds them equal. -/
  oui : Bytes := []
  /-- The search goes on while there is a byte so far ahead. -/
  ahead : ℕ := 0
  /-- No byte so far ahead is at or behind this one. -/
  maxSz : Option ℕ := none
  /-- The length is asked for. -/
  ielen : Bool := true
  /-- The element is copied. -/
  ie : Bool := false

structure IeOutcome where
  /-- The address; `none` if the loop does not end. -/
  found : Option (Option ℕ) := some none
  len : ℕ := 0
  copy : Bytes := []
  reads : List ℕ := []

namespace IeSearch

variable (f : IeSearch) (p : Bytes) (n cnt : ℕ)

/-- The search has not come to its end. -/
def go : Bool := cnt + f.ahead < n && f.maxSz.all (cnt + f.ahead < ·)

/-- The comparison of the source. -/
def hit : Bool := p.u8 cnt = f.eid && p.read (cnt + 2) f.oui.length = f.oui

/-- The addresses that a pass reads. -/
def log : List ℕ :=
  if n ≤ cnt + f.ahead then []
  else if !f.go n cnt then [cnt]
  else
    [cnt] ++ (if p.u8 cnt = f.eid then List.range' (cnt + 2) f.oui.length else []) ++
      if !f.hit p cnt then [cnt + 1]
      else
        (if f.ielen || f.ie then [cnt + 1] else []) ++
          if f.ie then List.range' cnt (bodyLen p cnt + 2) else []

def run : Option (Option ℕ) :=
  Loop.iterate (searchBody (f.go n) (f.hit p) (elemNext p)) (n + 1) 0

/-- What the function does; `head` bytes are counted as the length besides the body. -/
def outcome (head : ℕ) : IeOutcome :=
  let found := f.run p n
  { found
    len := if f.ielen then found.join.elim 0 fun q => bodyLen p q + head else 0
    copy := if f.ie then found.join.elim [] fun q => p.read q (bodyLen p q + 2) else []
    reads := Loop.trace (f.log p n) (searchBody (f.go n) (f.hit p) (elemNext p)) (n + 1) 0 }

end IeSearch

def ieSearch (index : UInt8) : IeSearch where
  eid := index

def rtwGetIe (pbuf : Bytes) (index : UInt8) (limit : ℕ) : IeOutcome :=
  if limit < 1 then {} else (ieSearch index).outcome pbuf limit 0

def ieExSearch (eid : UInt8) (oui : Bytes) (ie ielen : Bool) : IeSearch where
  eid := eid
  oui := oui
  ie := ie
  ielen := ielen

def rtwGetIeEx (inIe : Bytes) (inLen : ℕ) (eid : UInt8) (oui : Bytes) (ie ielen : Bool) :
    IeOutcome :=
  if inLen ≤ 0 then {} else (ieExSearch eid oui ie ielen).outcome inIe inLen 2

def wpsSearch (wpsIe wpsIelen : Bool) : IeSearch where
  eid := wlanEidVendorSpecific
  oui := wpsOui
  ahead := 5
  maxSz := some maxIeSz
  ie := wpsIe
  ielen := wpsIelen

def rtwGetWpsIe (inIe : Bytes) (inLen : ℕ) (wpsIe wpsIelen : Bool) : IeOutcome :=
  if inLen ≤ 0 then {} else (wpsSearch wpsIe wpsIelen).outcome inIe inLen 2

/-! ## What is asked of a search -/

/-- **The search stays inside** the first `n` bytes, and finds the first element that matches. -/
structure Inside (o : IeOutcome) (p : Bytes) (n : ℕ) (eid : UInt8) (oui : Bytes) : Prop where
  ends : o.found.isSome
  reads : ∀ a ∈ o.reads, a < n
  whole : ∀ q, o.found = some (some q) → q + (bodyLen p q + 2) ≤ n
  first : ∀ q, o.found = some (some q) → First (elemNext p) 0 (Matches p eid oui) q

structure Visited (f : IeSearch) (p : Bytes) (n q : ℕ) : Prop where
  item : At (elemNext p) 0 q
  go : f.go n q = true
  past : ∀ r < q, At (elemNext p) 0 r → f.hit p r = false

/-- An element is not cut off where it matters: its header and the bytes that are compared end
before `n`, and if they are what is looked for, the element holds them and ends before `n`. -/
structure Uncut (f : IeSearch) (p : Bytes) (n q : ℕ) : Prop where
  header : q + 1 < n
  compared : p.u8 q = f.eid → q + 2 + f.oui.length ≤ n
  found : f.hit p q = true → f.oui.length ≤ bodyLen p q ∧ q + (bodyLen p q + 2) ≤ n

/-- **No element that the search comes to is cut off.** -/
def NoneCut (f : IeSearch) (p : Bytes) (n : ℕ) : Prop := ∀ q, Visited f p n q → Uncut f p n q

variable {f : IeSearch} {p : Bytes} {n q r : ℕ}

theorem lt_elemNext (p : Bytes) (q : ℕ) : q < elemNext p q := by
  unfold elemNext
  omega

theorem IeSearch.go_iff :
    f.go n q = true ↔ q + f.ahead < n ∧ ∀ m ∈ f.maxSz, q + f.ahead < m := by
  simp [IeSearch.go, Option.all_eq_true]

theorem IeSearch.go_of_le (h : f.go n q = true) (hle : r ≤ q) : f.go n r = true := by
  obtain ⟨hlt, hmax⟩ := IeSearch.go_iff.mp h
  exact IeSearch.go_iff.mpr ⟨by omega, fun m hm => by have := hmax m hm; omega⟩

theorem reaches_iff_visited (hgo : f.go n q = true) :
    Loop.Reaches (searchBody (f.go n) (f.hit p) (elemNext p)) 0 q ↔ Visited f p n q := by
  rw [reaches_search_iff (lt_elemNext p)]
  constructor
  · rintro ⟨hat, hpast⟩
    exact ⟨hat, hgo, fun r hr hitem => (hpast r hr hitem).2⟩
  · rintro ⟨hat, -, hpast⟩
    exact ⟨hat, fun r hr hitem => ⟨IeSearch.go_of_le hgo hr.le, hpast r hr hitem⟩⟩

theorem isSome_run (f : IeSearch) (p : Bytes) (n : ℕ) : (f.run p n).isSome := by
  refine isSome_search (lt_elemNext p) (fun q hq => ?_) (Nat.lt_succ_self n)
  have hlt := (IeSearch.go_iff.mp hq).1
  omega

theorem run_eq_some_iff : f.run p n = some (some q) ↔ Visited f p n q ∧ f.hit p q = true := by
  constructor
  · intro h
    obtain ⟨⟨hat, hhit, hfirst⟩, hgo⟩ := search_eq_some (lt_elemNext p) h
    exact ⟨⟨hat, hgo, fun r hr hitem => Bool.eq_false_iff.mpr (hfirst r hr hitem)⟩, hhit⟩
  · rintro ⟨hvisited, hhit⟩
    refine search_of_reaches (isSome_run f p n) ?_ hvisited.go hhit
    exact (reaches_iff_visited hvisited.go).mpr hvisited

/-- A pass reads the header of an element that is visited, and what is compared. -/
theorem mem_log_of_go (hgo : f.go n q = true) :
    q ∈ f.log p n q ∧ (p.u8 q = f.eid → ∀ k < f.oui.length, q + 2 + k ∈ f.log p n q) ∧
      (f.hit p q = false → q + 1 ∈ f.log p n q) := by
  have hlt := (IeSearch.go_iff.mp hgo).1
  unfold IeSearch.log
  rw [if_neg (by omega), hgo]
  refine ⟨by simp, fun hid k hk => ?_, fun hhit => by simp [hhit]⟩
  rw [if_neg (by decide), if_pos hid]
  refine List.mem_append_left _ (List.mem_append_right _ ?_)
  exact List.mem_range'_1.mpr (by omega)

/-- What a pass reads. -/
theorem mem_log {a : ℕ} (ha : a ∈ f.log p n q) :
    a = q ∧ q < n ∨ f.go n q = true ∧
      (a = q ∨ a = q + 1 ∨ (p.u8 q = f.eid ∧ a < q + 2 + f.oui.length) ∨
        f.hit p q = true ∧ a < q + (bodyLen p q + 2)) := by
  unfold IeSearch.log at ha
  by_cases hend : n ≤ q + f.ahead
  · rw [if_pos hend] at ha
    cases ha
  · rw [if_neg hend] at ha
    cases hgo : f.go n q with
    | false =>
      rw [hgo] at ha
      exact .inl ⟨List.mem_singleton.mp ha, by omega⟩
    | true =>
      rw [hgo, if_neg (by decide)] at ha
      refine .inr ⟨rfl, ?_⟩
      rcases List.mem_append.mp ha with ha | ha
      · rcases List.mem_append.mp ha with ha | ha
        · exact .inl (List.mem_singleton.mp ha)
        · by_cases hid : p.u8 q = f.eid
          · rw [if_pos hid] at ha
            exact .inr (.inr (.inl ⟨hid, (List.mem_range'_1.mp ha).2⟩))
          · rw [if_neg hid] at ha
            cases ha
      · cases hhit : f.hit p q with
        | false =>
          rw [hhit] at ha
          exact .inr (.inl (List.mem_singleton.mp ha))
        | true =>
          rw [hhit, if_neg (by decide)] at ha
          rcases List.mem_append.mp ha with ha | ha
          · split_ifs at ha
            · exact .inr (.inl (List.mem_singleton.mp ha))
            · cases ha
          · split_ifs at ha
            · exact .inr (.inr (.inr ⟨rfl, (List.mem_range'_1.mp ha).2⟩))
            · cases ha

/-- A pass reads nothing behind an element that is not cut off. -/
theorem lt_of_mem_log {a : ℕ} (huncut : f.go n q = true → Uncut f p n q) (ha : a ∈ f.log p n q) :
    a < n := by
  rcases mem_log ha with ⟨rfl, hlt⟩ | ⟨hgo, ha⟩
  · exact hlt
  · obtain ⟨hheader, hcompared, hfound⟩ := huncut hgo
    rcases ha with rfl | rfl | ⟨hid, ha⟩ | ⟨hhit, ha⟩
    · omega
    · exact hheader
    · exact ha.trans_le (hcompared hid)
    · exact ha.trans_le (hfound hhit).2

theorem hit_iff_matches (hlong : f.hit p q = true → f.oui.length ≤ bodyLen p q) :
    f.hit p q = true ↔ Matches p f.eid f.oui q := by
  have hhit : f.hit p q = true ↔ p.u8 q = f.eid ∧ p.read (q + 2) f.oui.length = f.oui := by
    simp [IeSearch.hit]
  refine ⟨fun h => ⟨(hhit.mp h).1, hlong h, (hhit.mp h).2⟩, fun h => hhit.mpr ⟨h.id, h.oui⟩⟩

/-- **A search stays inside exactly if it comes to no element that is cut off.** -/
theorem inside_outcome_iff (f : IeSearch) (p : Bytes) (n head : ℕ) :
    Inside (f.outcome p n head) p n f.eid f.oui ↔ NoneCut f p n := by
  have hreads : ∀ a, a ∈ (f.outcome p n head).reads ↔ ∃ q,
      Loop.Reaches (searchBody (f.go n) (f.hit p) (elemNext p)) 0 q ∧ a ∈ f.log p n q := fun a =>
    Loop.mem_trace_iff (isSome_run f p n)
  constructor
  · rintro ⟨-, hin, hwhole, hfirst⟩ q hvisited
    obtain ⟨hhead, hcmp, hlen⟩ := mem_log_of_go hvisited.go
    have hreach := (reaches_iff_visited hvisited.go).mpr hvisited
    have hread : ∀ a ∈ f.log p n q, a < n := fun a ha => hin a ((hreads a).mpr ⟨q, hreach, ha⟩)
    have hfound : f.hit p q = true → f.oui.length ≤ bodyLen p q ∧ q + (bodyLen p q + 2) ≤ n :=
      fun hhit => by
        have hrun :
            (f.outcome p n head).found = some (some q) := run_eq_some_iff.mpr ⟨hvisited, hhit⟩
        exact ⟨(hfirst q hrun).holds.long, hwhole q hrun⟩
    have hheader : q + 1 < n := by
      cases hhit : f.hit p q with
      | false => exact hread _ (hlen hhit)
      | true =>
        have hend := (hfound hhit).2
        omega
    refine ⟨hheader, fun hid => ?_, hfound⟩
    -- the last byte that is compared
    rcases Nat.eq_zero_or_pos f.oui.length with hzero | hpos
    · omega
    · have hlast := hread _ (hcmp hid (f.oui.length - 1) (by omega))
      omega
  · intro hcut
    have hvisited : ∀ q, (f.outcome p n head).found = some (some q) →
        Visited f p n q ∧ f.hit p q = true := fun q hq => run_eq_some_iff.mp hq
    refine ⟨isSome_run f p n, fun a ha => ?_, fun q hq => ?_, fun q hq => ?_⟩
    · obtain ⟨q, hreach, hlog⟩ := (hreads a).mp ha
      exact lt_of_mem_log (fun hgo => hcut q ((reaches_iff_visited hgo).mp hreach)) hlog
    · obtain ⟨hv, hhit⟩ := hvisited q hq
      exact ((hcut q hv).found hhit).2
    · obtain ⟨hv, hhit⟩ := hvisited q hq
      refine ⟨hv.item, (hit_iff_matches fun h => ((hcut q hv).found h).1).mp hhit, ?_⟩
      intro r hr hitem hmatch
      have hmiss := hv.past r hr hitem
      simp [IeSearch.hit, hmatch.id, hmatch.oui] at hmiss

theorem inside_empty (f : IeSearch) (p : Bytes) : Inside {} p 0 f.eid f.oui ↔ NoneCut f p 0 := by
  refine iff_of_true ⟨rfl, ?_, ?_, ?_⟩ fun q hvisited => ?_
  · rintro a ⟨⟩
  · rintro q ⟨⟩
  · rintro q ⟨⟩
  · exact absurd (IeSearch.go_iff.mp hvisited.go).1 (Nat.not_lt_zero _)

/-- **The three searches stay inside** the first `n` bytes, and find the first element that matches,
exactly if no element that they come to is cut off by the end of these bytes. -/
theorem ieSearches_inside_iff (p : Bytes) (n : ℕ) (eid : UInt8) (oui : Bytes) (ie ielen : Bool) :
    (Inside (rtwGetIe p eid n) p n eid [] ↔ NoneCut (ieSearch eid) p n) ∧
    (Inside (rtwGetIeEx p n eid oui ie ielen) p n eid oui ↔
      NoneCut (ieExSearch eid oui ie ielen) p n) ∧
    (Inside (rtwGetWpsIe p n ie ielen) p n wlanEidVendorSpecific wpsOui ↔
      NoneCut (wpsSearch ie ielen) p n) := by
  rcases Nat.eq_zero_or_pos n with rfl | hpos
  · refine ⟨?_, ?_, ?_⟩
    · exact inside_empty (ieSearch eid) p
    · exact inside_empty (ieExSearch eid oui ie ielen) p
    · exact inside_empty (wpsSearch ie ielen) p
  · have hempty : ¬n ≤ 0 := Nat.not_le.mpr hpos
    refine ⟨?_, ?_, ?_⟩
    · rw [rtwGetIe, if_neg (Nat.not_lt.mpr hpos)]
      exact inside_outcome_iff (ieSearch eid) p n 0
    · rw [rtwGetIeEx, if_neg hempty]
      exact inside_outcome_iff (ieExSearch eid oui ie ielen) p n 2
    · rw [rtwGetWpsIe, if_neg hempty]
      exact inside_outcome_iff (wpsSearch ie ielen) p n 2

/-- One byte is left: the search for another id reads the length behind it. -/
theorem not_ieSearches_inside :
    ¬∀ (p : Bytes) (n : ℕ) (eid : UInt8), n ≤ p.length → Inside (rtwGetIe p eid n) p n eid [] := by
  intro h
  have hreads := (h [1, 0, 3] 3 5 (by decide)).reads 3 (by decide)
  exact absurd hreads (by decide)

end Ie

end Rtl88x2eu
