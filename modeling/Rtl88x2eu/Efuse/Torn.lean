import Rtl88x2eu.Efuse.CommandState
import Rtl88x2eu.Efuse.RoundTrip

/-!
# Writes that are given up

A write of a byte appends an entry of four bytes, and may be given up behind any of them. The bytes
that were programmed stay where they are: they, and whatever stands behind them, are read as entries
from then on, and the next entry is appended behind these.

With both bytes of its header the entry is complete, its words being what the cells hold. The first
byte alone is the end of the entries for the eeprom parser, which has stepped over it: the next
entry is appended behind it, and the two parse as another one.

## Main definitions

* `Silent`
* `Appends phy j e`, `Takes phy logMap word`: the map takes every further write
* `Torn`, `Recovers`, `Mended`

## Main results

* `parse_placed_iff`: the map behind one more write
* `takes_iff`: the maps that take every further write
* `torn_of_fails`: what a failed write leaves behind
* `recovers_iff`: the writes from which the map recovers
* `mended_iff`: on a map that is blank behind its entries
-/

namespace Rtl88x2eu.Efuse

open RecordLog Failing

variable {phy logMap m : Map} {efuseEnd e i j k offset : ℕ} {value : UInt8} {s s' t : Adapter}
  {es : List (List (ℕ × UInt8))} {bs : List UInt8}

/-- The entry that `proc_write_log_efuse_8822e` appends. -/
def wordBytes (logMap : Map) (offset : ℕ) (value : UInt8) : List UInt8 :=
  logEntryHdr false offset ++
    [if offset % 2 = 0 then value else logMap (offset - 1),
      if offset % 2 = 0 then logMap (offset + 1) else value]

theorem wordBytes_eq (hoffset : offset < eepromSize) :
    wordBytes logMap offset value =
      encodeEntries (wordEntry offset) (Function.update logMap offset value) := by
  rw [encodeEntries_wordEntry _ hoffset, wordBytes]
  rcases Nat.mod_two_eq_zero_or_one offset with heven | hodd
  · rw [if_pos heven, if_pos heven, show offset / 2 * 2 = offset by omega, Function.update_self,
      Function.update_of_ne (by omega)]
  · rw [if_neg (by omega), if_neg (by omega), show offset / 2 * 2 = offset - 1 by omega,
      Function.update_of_ne (by omega), show offset - 1 + 1 = offset by omega,
      Function.update_self]

theorem length_wordBytes (logMap : Map) (offset : ℕ) (value : UInt8) :
    (wordBytes logMap offset value).length = 4 := rfl

theorem wordEntry_lt : ∀ p ∈ wordEntry offset, p.2 < 15 := by
  intro p hp
  obtain rfl := List.mem_singleton.mp hp
  exact (wordMask_spec _ (by omega)).1

theorem overlay_wordEntry (hoffset : offset < eepromSize) :
    overlay logMap
        (assignEntries (wordEntry offset) (Function.update logMap offset value)).flatten =
      Function.update logMap offset value := by
  funext c
  rw [overlay_assignEntries]
  split
  · rfl
  · next hc =>
    rw [Function.update_of_ne]
    rintro rfl
    exact hc ((covered_wordEntry hoffset).mpr rfl)

theorem byteWrite_cases (hs : Begins phy s) (hparse : eepromParse false phy = some (m, e))
    (hret : Returns (procWriteLogEfuse offset value) s () s') :
    m offset = value ∧ physMap s' = phy ∨
      m offset ≠ value ∧ 4 + e < efuseSize ∧
        physMap s' = place phy e (wordBytes m offset value) := by
  simp only [procWriteLogEfuse, returns_bind, expect_returns, returns_onlyIf, returns_look,
    returns_failIf] at hret
  obtain ⟨_, _, ⟨-, rfl⟩, map, t, hread, hrest⟩ := hret
  obtain ⟨rfl, hend, -, ht⟩ := hs.shift.readLogEfuseMap hparse hread
  rcases hrest with ⟨hne, _, _, ⟨rfl, rfl⟩, _, _, ⟨rfl, rfl⟩, _, _, ⟨henough, rfl⟩, hwrite⟩ |
    ⟨hsame, rfl⟩
  · right
    rw [ht.wifi, hend] at henough hwrite
    rw [if_pos (.inl rfl)] at henough
    obtain ⟨a, v, rfl, -⟩ := writeBytes_returns ht.storing hwrite
    refine ⟨hne, not_le.mp henough, ?_⟩
    change copyMap (place t.cells e (wordBytes map offset value)) t.efuseMap = _
    rw [copyMap_place (by rw [length_wordBytes]; omega)]
    exact congrArg (fun phy => place phy e _) ht.cells
  · exact .inl ⟨not_not.mp hsame, ht.cells⟩

theorem exists_byteWrite (value : UInt8) (hparse : eepromParse false phy = some (m, e))
    (hroom : m offset = value ∨ 4 + e < efuseSize) :
    ∃ s', Returns (procWriteLogEfuse offset value) (holding phy) () s' :=
  procWriteLogEfuse_succeeds (answering_holding phy)
    ⟨m, e, hparse, hroom.imp_right fun hroom => ⟨hroom, cellsTake_of_not_check rfl⟩⟩

theorem readHdr_congr {phy' : Map} (h : ∀ n, i ≤ n → phy' n = phy n) :
    readHdr false phy' i = readHdr false phy i := by
  unfold readHdr
  rw [h i le_rfl, h (i + 1) (Nat.le_succ i)]

theorem readEntry_of_stop (h : readHdr false phy i = .stop e) : readEntry phy i = none := by
  unfold readEntry
  rw [h]

theorem parse_split_iff {k : ℕ} (hrec : Records readEntry phy secCtrlEfuseSize es k) :
    eepromParse false phy = some (m, e) ↔ ∃ rest j, Records readEntry phy k rest j ∧
      readHdr false phy j = .stop e ∧ m = overlay (overlay blank es.flatten) rest.flatten := by
  rw [eepromParse_eq_some_iff]
  constructor
  · rintro ⟨all, j, hall, rfl, hstop⟩
    obtain ⟨rest, rfl, hrest⟩ := hrec.split hall (readEntry_of_stop hstop)
    refine ⟨rest, j, hrest, hstop, ?_⟩
    rw [List.flatten_append, overlay_append]
  · rintro ⟨rest, j, hrest, hstop, rfl⟩
    refine ⟨es ++ rest, j, hrec.append hrest, ?_, hstop⟩
    rw [List.flatten_append, overlay_append]

/-- **The map behind one more write** is the new one with whatever stands behind the entry. -/
theorem parse_placed_iff {m' : Map} {e' : ℕ} (value : UInt8)
    (hrec : Records readEntry phy secCtrlEfuseSize es j) (hlog : m = overlay blank es.flatten)
    (hoffset : offset < eepromSize) (hroom : 4 + j < efuseSize) :
    eepromParse false (place phy j (wordBytes m offset value)) = some (m', e') ↔
      ∃ rest i, Records readEntry phy (j + 4) rest i ∧ readHdr false phy i = .stop e' ∧
        m' = overlay (Function.update m offset value) rest.flatten := by
  have hlen : (encodeEntries (wordEntry offset) (Function.update m offset value)).length = 4 := by
    rw [← wordBytes_eq hoffset, length_wordBytes]
  have hold : Records readEntry (place phy j (wordBytes m offset value)) secCtrlEfuseSize es j :=
    hrec.congr local_readEntry fun n _ hn => place_of_lt hn
  have hnew : Records readEntry (place phy j (wordBytes m offset value)) j
      (assignEntries (wordEntry offset) (Function.update m offset value)) (j + 4) := by
    have hplaced := records_place (wordEntry offset) wordEntry_lt phy
      (show j + List.length (encodeEntries _ (Function.update m offset value)) ≤ efuseSize by omega)
    rwa [hlen, ← wordBytes_eq hoffset] at hplaced
  have hbehind (n : ℕ) (hn : j + 4 ≤ n) : place phy j (wordBytes m offset value) n = phy n :=
    place_of_le hn
  rw [parse_split_iff (hold.append hnew), List.flatten_append, overlay_append, ← hlog,
    overlay_wordEntry hoffset]
  -- the bytes behind the entry are the same as before
  constructor
  · rintro ⟨rest, i, hrest, hstop, rfl⟩
    have hi := hrest.le local_readEntry
    refine ⟨rest, i, hrest.congr local_readEntry fun n hn _ => (hbehind n hn).symm, ?_, rfl⟩
    rwa [readHdr_congr fun n hn => hbehind n (hi.trans hn)] at hstop
  · rintro ⟨rest, i, hrest, hstop, rfl⟩
    have hi := hrest.le local_readEntry
    refine ⟨rest, i, hrest.congr local_readEntry fun n hn _ => hbehind n hn, ?_, rfl⟩
    rwa [readHdr_congr fun n hn => hbehind n (hi.trans hn)]

/-! ## Maps that take every further write -/

/-- From here on there are only entries without words. -/
def Silent (phy : Map) (i : ℕ) : Prop :=
  ∃ es j e, Records readEntry phy i es j ∧ readHdr false phy j = .stop e ∧ es.flatten = []

/-- There is no room for another entry, or it begins where the entries stop and changes nothing
behind it. -/
def Appends (phy : Map) (j efuseEnd : ℕ) : Prop :=
  efuseSize ≤ 4 + efuseEnd ∨ efuseEnd = j ∧ Silent phy (j + 4)

/-- Every write is read back, and leaves the cells outside one word at their value in `logMap`. -/
def Takes (phy logMap : Map) (word : ℕ) : Prop :=
  ∀ s offset value s', Begins phy s → offset < eepromSize →
    Returns (procWriteLogEfuse offset value) s () s' →
    ∃ m e, eepromParse false (physMap s') = some (m, e) ∧ m offset = value ∧
      ∀ c, c ≠ offset → c / 2 ≠ word → m c = logMap c

variable {word : ℕ}

theorem takes_of_appends (hrec : Records readEntry phy secCtrlEfuseSize es j)
    (hstop : readHdr false phy j = .stop e)
    (hsame : ∀ c, c / 2 ≠ word → overlay blank es.flatten c = logMap c) (h : Appends phy j e) :
    Takes phy logMap word := by
  have hparse := eepromParse_eq_some_iff.mpr ⟨es, j, hrec, rfl, hstop⟩
  intro s offset value s' hs hoffset hret
  rcases byteWrite_cases hs hparse hret with ⟨hvalue, hphy⟩ | ⟨-, hroom, hphy⟩
  · rw [hphy]
    exact ⟨_, e, hparse, hvalue, fun c _ hc => hsame c hc⟩
  · rcases h with hfull | ⟨rfl, es', i, e', hrec', hstop', hsilent⟩
    · omega
    · rw [hphy]
      have hplaced := (parse_placed_iff value hrec rfl hoffset hroom).mpr
        ⟨es', i, hrec', hstop', rfl⟩
      rw [hsilent, overlay_nil] at hplaced
      refine ⟨_, e', hplaced, Function.update_self .., fun c hne hc => ?_⟩
      rw [Function.update_of_ne hne]
      exact hsame c hc

/-- What a new value leaves behind, on a map that takes it. -/
theorem Takes.placed (h : Takes phy logMap word) (hparse : eepromParse false phy = some (m, e))
    (hroom : 4 + e < efuseSize) (hoffset : offset < eepromSize) (hne : m offset ≠ value) :
    ∃ m' e', eepromParse false (place phy e (wordBytes m offset value)) = some (m', e') ∧
      m' offset = value := by
  obtain ⟨s', hret⟩ := exists_byteWrite value hparse (.inr hroom)
  obtain ⟨m', e', hparse', hvalue, -⟩ := h _ _ _ _ begins_holding hoffset hret
  rcases byteWrite_cases begins_holding hparse hret with ⟨hsame, -⟩ | ⟨-, -, hphy⟩
  · exact absurd hsame hne
  · rw [hphy] at hparse'
    exact ⟨m', e', hparse', hvalue⟩

/-- A write of what is there already shows the other cells. -/
theorem Takes.same (h : Takes phy logMap word) (hparse : eepromParse false phy = some (m, e))
    {c : ℕ} (hc : c / 2 ≠ word) : m c = logMap c := by
  obtain ⟨offset, hoffset, hne⟩ : ∃ offset < eepromSize, c ≠ offset := by
    rcases Nat.eq_zero_or_pos c with rfl | hpos
    · exact ⟨1, by decide, by decide⟩
    · exact ⟨0, by decide, by omega⟩
  obtain ⟨s', hret⟩ := exists_byteWrite (m offset) hparse (.inl rfl)
  obtain ⟨m', e', hparse', -, hsame⟩ := h _ _ _ _ begins_holding hoffset hret
  rcases byteWrite_cases begins_holding hparse hret with ⟨-, hphy⟩ | ⟨hne', -⟩
  · rw [hphy, hparse] at hparse'
    obtain ⟨rfl, rfl⟩ := Prod.mk.inj (Option.some.inj hparse')
    exact hsame c hne hc
  · exact absurd rfl hne'

theorem exists_misread (m : Map) : ∃ offset value x, offset < eepromSize ∧ m offset ≠ value ∧
    wordBytes m offset value = [0x3F, 0x0E, 0xff, x] := by
  by_cases hblank : m 1920 = 0xff
  · have hne : ∀ x : UInt8, x ≠ ~~~ x := by decide +kernel
    refine ⟨1921, ~~~ m 1921, ~~~ m 1921, by decide, hne _, ?_⟩
    show [0x3F, 0x0E, m 1920, ~~~ m 1921] = _
    rw [hblank]
  · exact ⟨1920, 0xff, m 1921, by decide, hblank, rfl⟩

theorem Takes.tidy (h : Takes phy logMap word) (hrec : Records readEntry phy secCtrlEfuseSize es j)
    (hstop : readHdr false phy j = .stop e) (hroom : 4 + e < efuseSize) : e = j := by
  rcases readHdr_eq_stop.mp hstop with ⟨-, hend⟩ | ⟨⟨hlt, hne, -⟩, rfl⟩
  · exact hend
  · exfalso
    have hparse := eepromParse_eq_some_iff.mpr ⟨es, j, hrec, rfl, hstop⟩
    obtain ⟨offset, value, x, hoffset, hvalue, hbytes⟩ := exists_misread (overlay blank es.flatten)
    obtain ⟨m', e', hparse', hread⟩ := h.placed hparse hroom hoffset hvalue
    rw [hbytes] at hparse'
    set phy' := place phy (j + 1) [0x3F, 0x0E, 0xff, x] with hphy'
    have hcell (k : ℕ) (hk : k < 4) : phy' (j + 1 + k) = [0x3F, 0x0E, 0xff, x][k] := place_get hk
    have hfirst : phy' j = phy j := place_of_lt (Nat.lt_succ_self j)
    have hold : Records readEntry phy' secCtrlEfuseSize es j :=
      hrec.congr local_readEntry fun n _ hn => place_of_lt (by omega)
    have hsecond : phy' (j + 1) = 0x3F := hcell 0 (by omega)
    have hhdr : readHdr false phy' j = .entry (blkIdxOf (phy j) 0x3F) 0x0F (j + 2) := by
      rw [readHdr_eq_entry, hfirst, hsecond]
      exact ⟨hlt, hne, by decide, rfl, by decide, rfl⟩
    have hentry : readEntry phy' j = some ([], j + 2) :=
      readEntry_eq_some.mpr ⟨_, _, hhdr, by omega, rfl, by omega, rfl⟩
    have hlone : readHdr false phy' (j + 2) = .stop (j + 3) := by
      refine readHdr_eq_stop.mpr (.inr ⟨⟨by omega, ?_, hcell 2 (by omega)⟩, rfl⟩)
      rw [show phy' (j + 2) = 0x0E from hcell 1 (by omega)]
      decide
    have hunread := (parse_split_iff hold).mpr ⟨[[]], j + 2, .cons hentry (.nil _), hlone, rfl⟩
    rw [hunread] at hparse'
    obtain ⟨rfl, -⟩ := Prod.mk.inj (Option.some.inj hparse')
    exact hvalue hread

theorem lt_of_mem_records {c : ℕ} (hrec : Records readEntry phy i es j)
    (hc : c ∈ es.flatten.map Prod.fst) : c < eepromSize := by
  induction hrec with
  | nil => cases hc
  | cons head _ ih =>
    rw [List.flatten_cons, List.map_append, List.mem_append] at hc
    refine hc.elim (fun hc => ?_) ih
    obtain ⟨blkIdx, wordEn, -, -, -, -, rfl⟩ := readEntry_eq_some.mp head
    rw [assignWords_cells] at hc
    obtain ⟨hblk, -⟩ := (mem_entryCells fun _ => lt_of_mem_enabledWords).mp hc
    have hlt := blkIdx.toNat_lt
    unfold eepromSize
    omega

theorem exists_ne_ne (x y : UInt8) : ∃ value : UInt8, x ≠ value ∧ y ≠ value := by
  have hcard : Finset.card {x, y} < Finset.card ({0, 1, 2} : Finset UInt8) :=
    lt_of_le_of_lt Finset.card_le_two (by decide)
  obtain ⟨value, -, hvalue⟩ := Finset.exists_mem_notMem_of_card_lt_card hcard
  rw [Finset.mem_insert, Finset.mem_singleton, not_or] at hvalue
  exact ⟨value, Ne.symm hvalue.1, Ne.symm hvalue.2⟩

theorem Takes.silent (h : Takes phy logMap word)
    (hrec : Records readEntry phy secCtrlEfuseSize es j) (hstop : readHdr false phy j = .stop j)
    (hroom : 4 + j < efuseSize) : Silent phy (j + 4) := by
  have hparse := eepromParse_eq_some_iff.mpr ⟨es, j, hrec, rfl, hstop⟩
  obtain ⟨offset, value, -, hoffset, hvalue, -⟩ := exists_misread (overlay blank es.flatten)
  obtain ⟨_, e', hplaced, -⟩ := h.placed hparse hroom hoffset hvalue
  obtain ⟨rest, i, hrest, hstop', -⟩ := (parse_placed_iff _ hrec rfl hoffset hroom).mp hplaced
  refine ⟨rest, i, e', hrest, hstop', ?_⟩
  by_contra hne
  obtain ⟨a, ha⟩ := List.exists_mem_of_ne_nil _ hne
  have hmem : a.1 ∈ rest.flatten.map Prod.fst := List.mem_map_of_mem ha
  -- a new value for a cell that is assigned behind the entry is not read back
  obtain ⟨value, hnew, hlost⟩ := exists_ne_ne (overlay blank es.flatten a.1)
    (overlay blank rest.flatten a.1)
  obtain ⟨m', e'', hplaced', hread⟩ :=
    h.placed hparse hroom (lt_of_mem_records hrest hmem) hnew
  have hbehind := (parse_placed_iff value hrec rfl (lt_of_mem_records hrest hmem)
    hroom).mpr ⟨rest, i, hrest, hstop', rfl⟩
  rw [hbehind] at hplaced'
  obtain ⟨rfl, -⟩ := Prod.mk.inj (Option.some.inj hplaced')
  rw [overlay_eq_of_mem _ blank hmem] at hread
  exact hlost hread

/-- **The maps that take every further write.** -/
theorem takes_iff (hrec : Records readEntry phy secCtrlEfuseSize es j)
    (hstop : readHdr false phy j = .stop e) :
    Takes phy logMap word ↔
      (∀ c, c / 2 ≠ word → overlay blank es.flatten c = logMap c) ∧ Appends phy j e := by
  constructor
  · intro h
    refine ⟨fun c hc => h.same (eepromParse_eq_some_iff.mpr ⟨es, j, hrec, rfl, hstop⟩) hc, ?_⟩
    by_cases hroom : 4 + e < efuseSize
    · obtain rfl := h.tidy hrec hstop hroom
      exact .inr ⟨rfl, h.silent hrec hstop hroom⟩
    · exact .inl (by omega)
  · rintro ⟨hsame, happends⟩
    exact takes_of_appends hrec hstop hsame happends

/-! ## Writes that are given up -/

/-- A write of a byte was given up after `k` of the bytes of its entry. -/
structure Torn (phy logMap : Map) (efuseEnd offset : ℕ) (value : UInt8) (k : ℕ) (s : Adapter) :
    Prop where
  changes : logMap offset ≠ value
  room : 4 + efuseEnd < efuseSize
  begins : Begins (place phy efuseEnd ((wordBytes logMap offset value).take k)) s

variable {err : RetStatus} {size : ℕ}

theorem readHwEfuse_fails (h : Fails (readHwEfuse offset size) s err s') :
    ∃ a, s' = { s with answers := a } := by
  induction size generalizing s' with
  | zero => exact absurd h not_fails_pure
  | succ size ih =>
    simp only [readHwEfuse, fails_bind, expect_fails, not_fails_look, not_fails_pure, false_or,
      returns_look] at h
    rcases h with h | ⟨map, t, hread, ⟨-, -, rfl⟩ | ⟨_, _, -, _, _, -, hnone⟩⟩
    · exact ih h
    · obtain ⟨⟨a, rfl⟩, -⟩ := readHwEfuse_returns hread
      exact ⟨_, rfl⟩
    · exact hnone.elim

theorem writeHwEfuse_fails (h : Fails (writeHwEfuse offset value) s err s') :
    ∃ a, s' = { s with
      efuseMapValid := false
      cells := Function.update s.cells offset (s.burn offset (s.cells offset) value)
      burned := s.burned ++ [(offset, value)]
      answers := a } := by
  simp only [writeHwEfuse, fails_bind, not_fails_modify, not_fails_look, false_or, returns_modify,
    expect_fails, expect_returns, returns_look, fails_onlyIf, fails_failIf] at h
  obtain ⟨_, _, rfl, _, _, rfl, ⟨-, -, rfl⟩ | ⟨_, _, ⟨-, rfl⟩, _, _, ⟨-, rfl⟩, -,
    hread | ⟨map, t, hread, -, -, rfl⟩⟩⟩ := h
  · exact ⟨_, rfl⟩
  · obtain ⟨a, rfl⟩ := readHwEfuse_fails hread
    exact ⟨a, rfl⟩
  · obtain ⟨⟨a, rfl⟩, -⟩ := readHwEfuse_returns hread
    exact ⟨a, rfl⟩

theorem writeBytes_fails (hs : Storing s) (h : Fails (writeBytes i bs) s err s') :
    ∃ a n, n ≤ bs.length ∧ s' = { s with
      efuseMapValid := false
      cells := place s.cells i (bs.take n)
      burned := s.burned ++ addressed i (bs.take n)
      answers := a } := by
  induction bs generalizing s i with
  | nil => exact absurd h not_fails_pure
  | cons b bs ih =>
    rcases fails_bind.mp h with hfirst | ⟨_, t, hfirst, hrest⟩
    · obtain ⟨a, rfl⟩ := writeHwEfuse_fails hfirst
      refine ⟨a, 1, by simp, ?_⟩
      rw [hs, ← place_singleton]
      rfl
    · obtain ⟨a, rfl⟩ := writeHwEfuse_returns hfirst
      obtain ⟨a', n, hn, rfl⟩ := ih (by exact hs) hrest
      refine ⟨a', n + 1, Nat.succ_le_succ hn, ?_⟩
      rw [List.take_succ_cons, place_cons, place_singleton, hs, addressed, List.append_assoc]
      rfl

theorem eepromParser_fails {phyMap : Map} (h : Fails (eepromParser phyMap) s err s') :
    eepromParse s.btSwitch phyMap = none := by
  simp only [eepromParser, fails_bind, not_fails_look, not_fails_modify, not_fails_pure, false_or,
    returns_look, fails_orThrow] at h
  obtain ⟨_, _, ⟨rfl, rfl⟩, ⟨hnone, -⟩ | ⟨_, _, -, _, _, -, hpure⟩⟩ := h
  · exact hnone
  · exact hpure.elim

theorem begins_of_fails (hs : Begins phy s) (hparse : eepromParse false phy = some (m, e))
    (h : Fails readLogEfuseMap s err s') : Begins phy s' := by
  obtain ⟨valid, _, hvalid, h⟩ := (fails_bind.mp h).resolve_left not_fails_look
  obtain ⟨rfl, rfl⟩ := returns_look.mp hvalid
  rcases fails_bind.mp h with hrefill | ⟨_, t, hrefill, h⟩
  · simp only [fails_onlyIf, refillEfuseMap, fails_bind, expect_fails, expect_returns,
      not_fails_look, not_fails_modify, false_or, and_false, exists_false, or_false,
      returns_look] at hrefill
    obtain ⟨-, ⟨-, -, rfl⟩ | ⟨_, _, ⟨-, rfl⟩, hread | ⟨_, t, hread, _, _, ⟨-, rfl⟩, -, -, -,
      rfl⟩⟩⟩ := hrefill
    · exact hs.shift
    · obtain ⟨a, rfl⟩ := readHwEfuse_fails hread
      exact ⟨hs.wifi, hs.storing, hs.coherent, hs.cells⟩
    · obtain ⟨⟨a, rfl⟩, -⟩ := readHwEfuse_returns hread
      exact ⟨hs.wifi, hs.storing, hs.coherent, hs.cells⟩
  · -- the map that was read is accepted
    obtain ⟨_, _, hmap, h⟩ := (fails_bind.mp h).resolve_left not_fails_look
    obtain ⟨rfl, rfl⟩ := returns_look.mp hmap
    have hnone := eepromParser_fails h
    rcases returns_onlyIf.mp hrefill with ⟨-, hrefill⟩ | ⟨hvalid, rfl⟩
    · obtain ⟨a, null, rfl⟩ := refillEfuseMap_returns hrefill
      dsimp only at hnone
      rw [hs.wifi, hs.cells, hparse] at hnone
      cases hnone
    · have hvalid : s.efuseMapValid = true := by simpa using hvalid
      rw [hs.wifi, ← hs.coherent hvalid, hs.cells, hparse] at hnone
      cases hnone

/-- **What a write that failed leaves behind**: the old cells, or a first part of the entry. -/
theorem torn_of_fails (hs : Begins phy s) (hparse : eepromParse false phy = some (m, e))
    (h : Fails (procWriteLogEfuse offset value) s err s') :
    Begins phy s' ∨ ∃ k ≤ 4, Torn phy m e offset value k s' := by
  simp only [procWriteLogEfuse, fails_bind, expect_fails, expect_returns, fails_onlyIf,
    not_fails_look, false_or, returns_look, fails_failIf, returns_failIf] at h
  rcases h with ⟨-, -, rfl⟩ | ⟨_, _, ⟨-, rfl⟩, hread | ⟨map, t, hread, hne, _, _, ⟨rfl, rfl⟩, _, _,
    ⟨rfl, rfl⟩, h⟩⟩
  · exact .inl hs.shift
  · exact .inl (begins_of_fails hs.shift hparse hread)
  · obtain ⟨rfl, hend, -, ht⟩ := hs.shift.readLogEfuseMap hparse hread
    rw [ht.wifi, hend] at h
    rcases h with ⟨-, -, rfl⟩ | ⟨_, _, ⟨henough, rfl⟩, hwrite⟩
    · exact .inl ht
    · right
      rw [if_pos (.inl rfl)] at henough
      obtain ⟨a, k, hk, rfl⟩ := writeBytes_fails ht.storing hwrite
      refine ⟨k, hk, hne, not_le.mp henough, ht.wifi, ht.storing,
        fun h => absurd h Bool.false_ne_true, ?_⟩
      change copyMap (place t.cells e ((wordBytes map offset value).take k)) t.efuseMap = _
      have hlen : ((wordBytes map offset value).take k).length ≤ 4 :=
        (List.length_take_le' ..).trans_eq (length_wordBytes ..)
      rw [copyMap_place (by omega)]
      exact congrArg (fun phy => place phy e _) ht.cells

/-- **The map recovers from a write that was given up** after `k` bytes: it is accepted again, and
a further write is read back and changes nothing else outside the word of the one that was given
up. -/
def Recovers (phy logMap : Map) (efuseEnd offset : ℕ) (value : UInt8) (k : ℕ) : Prop :=
  ∀ s, Torn phy logMap efuseEnd offset value k s →
    (∃ m e, eepromParse false (physMap s) = some (m, e)) ∧
      ∀ offset' value' s', offset' < eepromSize →
        Returns (procWriteLogEfuse offset' value') s () s' →
        ∃ m e, eepromParse false (physMap s') = some (m, e) ∧ m offset' = value' ∧
          ∀ c, c ≠ offset' → c / 2 ≠ offset / 2 → m c = logMap c

/-- What stands behind the old entries is harmless, and leaves a place for the next one. -/
def Mended (phy logMap : Map) (efuseEnd offset : ℕ) (value : UInt8) (k : ℕ) : Prop :=
  let torn := place phy efuseEnd ((wordBytes logMap offset value).take k)
  ∃ start es j e, (maskParse phy).map Prod.snd = some start ∧ Records readEntry torn start es j ∧
    readHdr false torn j = .stop e ∧
    (∀ c, c / 2 ≠ offset / 2 → overlay logMap es.flatten c = logMap c) ∧ Appends torn j e

/-- **The writes from which the map recovers.** -/
theorem recovers_iff (h : eepromParse false phy = some (logMap, efuseEnd)) :
    Recovers phy logMap efuseEnd offset value k ↔
      logMap offset = value ∨ efuseSize ≤ 4 + efuseEnd ∨
        Mended phy logMap efuseEnd offset value k := by
  obtain ⟨old, start, maskMap, hrec, rfl, hmask, -, hend⟩ := records_of_parse h
  set torn := place phy efuseEnd ((wordBytes (overlay blank old.flatten) offset value).take k)
    with htorn
  have hold : Records readEntry torn secCtrlEfuseSize old start :=
    hrec.congr local_readEntry fun n _ hn => place_of_lt (by omega)
  have hstart : (maskParse phy).map Prod.snd = some start := by
    rw [hmask]
    rfl
  constructor
  · intro hrecovers
    by_cases hsame : overlay blank old.flatten offset = value
    · exact .inl hsame
    by_cases hroom : 4 + efuseEnd < efuseSize
    · right
      right
      obtain ⟨⟨m, e, hparse⟩, -⟩ := hrecovers _ ⟨hsame, hroom, begins_holding⟩
      have htakes : Takes torn (overlay blank old.flatten) (offset / 2) :=
        fun s offset' value' s' hs => (hrecovers s ⟨hsame, hroom, hs⟩).2 offset' value' s'
      rw [physMap_holding] at hparse
      obtain ⟨es, j, hes, hstop, -⟩ := (parse_split_iff hold).mp hparse
      obtain ⟨hothers, happends⟩ := (takes_iff (hold.append hes) hstop).mp htakes
      rw [List.flatten_append, overlay_append] at hothers
      exact ⟨start, es, j, e, hstart, hes, hstop, hothers, happends⟩
    · exact .inr (.inl (not_lt.mp hroom))
  · rintro hcond s ⟨hne, hroom, hs⟩
    obtain ⟨start', es, j, e, hstart', hes, hstop, hothers, happends⟩ :=
      (hcond.resolve_left hne).resolve_left (not_le.mpr hroom)
    obtain rfl := Option.some.inj (hstart.symm.trans hstart')
    refine ⟨?_, fun offset' value' s' => ?_⟩
    · rw [hs.cells]
      exact ⟨_, e, (parse_split_iff hold).mpr ⟨es, j, hes, hstop, rfl⟩⟩
    · refine takes_of_appends (hold.append hes) hstop ?_ happends s offset' value' s' hs
      rw [List.flatten_append, overlay_append]
      exact hothers

theorem silent_of_free (hfree : ∀ n, i ≤ n → n < efuseSize → phy n = 0xff) : Silent phy i := by
  refine ⟨[], i, i, .nil i, readHdr_eq_stop.mpr (.inl ⟨?_, rfl⟩), rfl⟩
  rcases Nat.lt_or_ge i efuseSize with hlt | hge
  · exact .inr (hfree i le_rfl hlt)
  · exact .inl hge

theorem exists_place_take (phy logMap : Map) (i k : ℕ) (value : UInt8)
    (hoffset : offset < eepromSize) :
    ∃ values : Map, place phy i ((wordBytes logMap offset value).take (k + 2)) =
      place phy i (encodeEntries (wordEntry offset) values) := by
  set torn := place phy i ((wordBytes logMap offset value).take (k + 2)) with htorn
  have hcell (n : ℕ) (hn : n < ((wordBytes logMap offset value).take (k + 2)).length) :
      torn (i + n) = ((wordBytes logMap offset value).take (k + 2))[n] := place_get hn
  refine ⟨fun c => torn (i + 2 + c % 2), ?_⟩
  rw [encodeEntries_wordEntry _ hoffset, show offset / 2 * 2 % 2 = 0 by omega,
    show (offset / 2 * 2 + 1) % 2 = 1 by omega]
  refine eq_place (fun n hn => ?_) fun n hn => ?_
  · have hn : n < 4 := hn
    rcases n with _ | _ | _ | _ | n
    · exact hcell 0 (Nat.succ_pos _)
    · exact hcell 1 (Nat.succ_lt_succ (Nat.succ_pos _))
    · rfl
    · rfl
    · omega
  · rcases hn with hlt | hge
    · exact place_of_lt hlt
    · refine place_of_le ((Nat.add_le_add_left ?_ i).trans hge)
      exact List.length_take_le' ..

/-- **Blank behind the entries, a map is only spoilt by the first byte of a header alone**, unless
that byte takes the place of the last entry. -/
theorem mended_iff (h : Accepted phy logMap efuseEnd)
    (htidy : (maskParse phy).map Prod.snd = some efuseEnd) (hoffset : offset < eepromSize)
    (hroom : 4 + efuseEnd < efuseSize) :
    Mended phy logMap efuseEnd offset value k ↔ k ≠ 1 ∨ efuseSize = efuseEnd + 5 := by
  have hfree (n : ℕ) (bs : List UInt8) (hbs : bs.length ≤ 4) (hn : efuseEnd + bs.length ≤ n)
      (hlt : n < efuseSize) : place phy efuseEnd bs n = 0xff := by
    rw [place_of_le hn]
    exact h.free n (by omega) hlt
  unfold Mended
  match k with
  | 0 =>
    rw [List.take_zero]
    refine iff_of_true ⟨efuseEnd, [], efuseEnd, efuseEnd, htidy, .nil _, ?_, fun _ _ => rfl,
      .inr ⟨rfl, ?_⟩⟩ (.inl (by decide))
    · exact readHdr_eq_stop.mpr (.inl ⟨.inr (hfree _ [] (by simp) (by simp) (by omega)), rfl⟩)
    · exact silent_of_free fun n hn => hfree n [] (by simp) (by simp; omega)
  | 1 =>
    have hfirst : (wordBytes logMap offset value).take 1 = [entryHdr (UInt8.ofNat (offset / 8))] :=
      rfl
    rw [hfirst]
    set torn := place phy efuseEnd [entryHdr (UInt8.ofNat (offset / 8))] with htorn
    have hhdr : torn efuseEnd = entryHdr (UInt8.ofNat (offset / 8)) := place_get (k := 0) (by simp)
    have hlone : readHdr false torn efuseEnd = .stop (efuseEnd + 1) := by
      refine readHdr_eq_stop.mpr (.inr ⟨⟨by omega, ?_, ?_⟩, rfl⟩)
      · rw [hhdr]
        exact (entryHdr_nibbles _).2.1
      · exact hfree _ _ (by simp) le_rfl (by omega)
    constructor
    · rintro ⟨start, es, j, e, hstart, hes, hstop, -, happends⟩
      obtain rfl := Option.some.inj (htidy.symm.trans hstart)
      right
      cases hes with
      | nil =>
        obtain rfl := Hdr.stop.inj (hlone.symm.trans hstop)
        rcases happends with hfull | ⟨hend, -⟩
        · omega
        · omega
      | cons head _ =>
        rw [readEntry_of_stop hlone] at head
        cases head
    · rintro (hne | hfull)
      · exact absurd rfl hne
      · exact ⟨efuseEnd, [], efuseEnd, efuseEnd + 1, htidy, .nil _, hlone, fun _ _ => rfl,
          .inl (by omega)⟩
  | k + 2 =>
    refine iff_of_true ?_ (.inl (by omega))
    obtain ⟨values, hvalues⟩ := exists_place_take phy logMap efuseEnd k value hoffset
    have hlen : (encodeEntries (wordEntry offset) values).length = 4 := by
      rw [encodeEntries_wordEntry _ hoffset]
      rfl
    have hrec : Records readEntry (place phy efuseEnd (encodeEntries (wordEntry offset) values))
        efuseEnd (assignEntries (wordEntry offset) values) (efuseEnd + 4) := by
      have hplaced := records_place (wordEntry offset) wordEntry_lt phy
        (show efuseEnd + (encodeEntries (wordEntry offset) values).length ≤ efuseSize by omega)
      rwa [hlen] at hplaced
    rw [hvalues]
    refine ⟨efuseEnd, _, efuseEnd + 4, efuseEnd + 4, htidy, hrec, ?_, fun c hc => ?_,
      .inr ⟨rfl, ?_⟩⟩
    · refine readHdr_eq_stop.mpr (.inl ⟨.inr ?_, rfl⟩)
      exact hfree _ _ hlen.le (by omega) (by omega)
    · rw [overlay_assignEntries, if_neg fun hcov => hc ((covered_wordEntry hoffset).mp hcov)]
    · exact silent_of_free fun n hn => hfree n _ hlen.le (by omega)

/-- A blank efuse recovers from a write that was given up behind the header. -/
theorem recovers_blank : Recovers blank blank 4 0 0x12 2 :=
  (recovers_iff accepted_blank.parsed).mpr
    (.inr (.inr ((mended_iff accepted_blank rfl (by decide) (by decide)).mpr (.inl (by decide)))))

/-- It does not recover from one that was given up behind the first byte of the header: the next
write of the same byte is not read back. -/
theorem not_recovers : ¬∀ (phy logMap : Map) (efuseEnd offset : ℕ) (value : UInt8),
    eepromParse false phy = some (logMap, efuseEnd) → offset < eepromSize →
    ∀ k ≤ 4, Recovers phy logMap efuseEnd offset value k := by
  intro h
  have hrecovers := h blank blank 4 0 0x12 accepted_blank.parsed (by decide) 1 (by decide)
  have htakes : Takes (place blank 4 [0x30]) blank 0 := fun s offset' value' s' hs =>
    (hrecovers s ⟨by decide, by decide, hs⟩).2 offset' value' s'
  exact absurd (htakes.tidy (.nil 4) (e := 5) rfl (by decide)) (by decide)

end Rtl88x2eu.Efuse
