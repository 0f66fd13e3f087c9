import Rtl88x2eu.Efuse.Entries
import Rtl88x2eu.Efuse.Sizing

/-!
# Writing the logical map and reading it back

A map that the parser accepts, and that is blank behind the entries, takes a byte, a word or a whole
map with its mask: the parser then finds the new values where they were written and the old ones
elsewhere, and the bytes below the old end are the same.

The exception is a map that ends with a first header byte alone, as a programming leaves it that
was cut off after one byte. `eeprom_parser_8822e` has stepped over that byte before it looks for the
second one, `eeprom_mask_parser_8822e` has not. The byte and the word writers append behind it, so
that it becomes the header of a wrong entry; the programmer of a map writes over it.

## Main definitions

* `Accepted`, `RoundTrips`

## Main results

* `records_of_parse`: where the entries end, and where the two parsers stop
* `roundTrips_iff`: the maps that take every write
* `not_roundTrips_loneHeader`: a map that does not
-/

namespace Rtl88x2eu.Efuse

open RecordLog Failing

variable {phy logMap newMap : Map} {efuseEnd offset : ℕ} {s s' : Adapter}

/-- The parser accepts the map, which is blank behind the entries. -/
structure Accepted (phy logMap : Map) (efuseEnd : ℕ) : Prop where
  parsed : eepromParse false phy = some (logMap, efuseEnd)
  free : ∀ n, efuseEnd ≤ n → n < efuseSize → phy n = 0xff

structure Begins (phy : Map) (s : Adapter) : Prop where
  wifi : s.btSwitch = false
  storing : Storing s
  coherent : Coherent s
  cells : physMap s = phy

def Extends (phy : Map) (efuseEnd : ℕ) (newMap : Map) (s' : Adapter) : Prop :=
  (∃ e, eepromParse false (physMap s') = some (newMap, e)) ∧
    ∀ n < efuseEnd, physMap s' n = phy n

def maskedMap (info : PgEfuseInfo) (logMap : Map) : Map := fun c =>
  if c < info.efuseMapSize ∧ MaskSelects info.efuseMask c then info.efuseMap c else logMap c

def Room (phy logMap : Map) (efuseEnd : ℕ) (info : PgEfuseInfo) : Prop :=
  ∀ maskMap e, maskParse phy = some (maskMap, e) →
    efuseEnd + (programBytes info (updatedMaskOf info logMap maskMap)).length ≤ efuseSize

/-- Every write that succeeds is read back. -/
structure RoundTrips (phy logMap : Map) (efuseEnd : ℕ) : Prop where
  byte : ∀ s s' offset value, Begins phy s → offset < eepromSize →
    Returns (procWriteLogEfuse offset value) s () s' →
    Extends phy efuseEnd (Function.update logMap offset value) s'
  word : ∀ s s' offset (value : UInt16), Begins phy s → offset < eepromSize → offset % 2 = 0 →
    Returns (procWriteLogEfuseWord offset value) s () s' →
    Extends phy efuseEnd (Function.update (Function.update logMap offset (value &&& 0xFF).toUInt8)
      (offset + 1) ((value >>> 8) &&& 0xFF).toUInt8) s'
  map : ∀ s s' info, Begins phy s → info.efuseMapSize % 16 = 0 → info.efuseMapSize ≤ eepromSize →
    info.efuseMaskSize = info.efuseMapSize / 16 → Room phy logMap efuseEnd info →
    Returns (procPgEfuseByMap info) s () s' → Extends phy efuseEnd (maskedMap info logMap) s'

/-- **The two parsers stop at the end of the entries**, or the eeprom parser one byte behind it. -/
theorem records_of_parse (h : eepromParse false phy = some (logMap, efuseEnd)) :
    ∃ es j maskMap, Records readEntry phy secCtrlEfuseSize es j ∧
      logMap = overlay blank es.flatten ∧
      maskParse phy = some (maskMap, j) ∧ readHdr false phy j = .stop efuseEnd ∧
      (efuseEnd = j ∨ efuseEnd = j + 1 ∧ j < efuseSize ∧ phy j ≠ 0xff) := by
  obtain ⟨es, j, hrec, hlog, hstop⟩ := eepromParse_eq_some_iff.mp h
  have hmask (hj : efuseSize ≤ j ∨ phy j = 0xff ∨ phy (j + 1) = 0xff) :=
    maskParse_of_records hrec (readMaskHdr_eq_stop.mpr ⟨hj, rfl⟩)
  rcases readHdr_eq_stop.mp hstop with ⟨hblank, hend⟩ | ⟨⟨hlt, hne, hlone⟩, hend⟩
  · exact ⟨es, j, _, hrec, hlog, hmask (hblank.imp_right .inl), hstop, .inl hend⟩
  · exact ⟨es, j, _, hrec, hlog, hmask (.inr (.inr hlone)), hstop, .inr ⟨hend, hlt, hne⟩⟩

/-- Nothing was written. -/
theorem Accepted.extends_unchanged (h : Accepted phy logMap efuseEnd) (hphy : physMap s' = phy)
    (hnew : newMap = logMap) : Extends phy efuseEnd newMap s' := by
  refine ⟨⟨efuseEnd, ?_⟩, fun n _ => by rw [hphy]⟩
  rw [hphy, hnew]
  exact h.parsed

theorem Accepted.extends_place (h : Accepted phy logMap efuseEnd)
    {es : List (List (ℕ × UInt8))} (hrec : Records readEntry phy secCtrlEfuseSize es efuseEnd)
    (hlog : logMap = overlay blank es.flatten) {l : List (UInt8 × UInt8)} (hl : ∀ p ∈ l, p.2 < 15)
    (values : Map) (hfit : efuseEnd + (encodeEntries l values).length ≤ efuseSize)
    (hphy : physMap s' = place phy efuseEnd (encodeEntries l values))
    (hnew : ∀ c, newMap c = if Covered l c then values c else logMap c) :
    Extends phy efuseEnd newMap s' := by
  have hparse := eepromParse_place hrec h.free l hl hfit
  have hmap : newMap = overlay (overlay blank es.flatten) (assignEntries l values).flatten := by
    funext c
    rw [hnew, overlay_assignEntries, hlog]
  refine ⟨⟨efuseEnd + (encodeEntries l values).length, ?_⟩, fun n hn => ?_⟩
  · rw [hphy, hmap]
    exact hparse
  · rw [hphy, place_of_lt hn]

/-! ## One byte or one word -/

theorem copyMap_place {cells map : Map} {i : ℕ} {bs : List UInt8}
    (hfit : i + bs.length ≤ efuseSize) :
    copyMap (place cells i bs) map = place (copyMap cells map) i bs := by
  funext n
  unfold copyMap
  rcases Nat.lt_or_ge n i with hlt | hge
  · rw [place_of_lt hlt, place_of_lt hlt]
  · rcases Nat.lt_or_ge n (i + bs.length) with hlt | hge'
    · obtain ⟨k, rfl⟩ := Nat.exists_eq_add_of_le hge
      rw [place_get (by omega), place_get (by omega), if_pos (by omega)]
    · rw [place_of_le hge', place_of_le hge']

theorem copyMap_copyMap {cells map : Map} :
    copyMap cells (copyMap cells map) = copyMap cells map := by
  funext n
  unfold copyMap
  split <;> rfl

theorem Begins.readLogEfuseMap (hs : Begins phy s)
    (h : eepromParse false phy = some (logMap, efuseEnd)) {map : Map} {t : Adapter}
    (hread : Returns readLogEfuseMap s map t) :
    map = logMap ∧ t.efuseEnd = efuseEnd ∧ t.efuseMap = phy ∧ Begins phy t := by
  obtain ⟨a, null, e, hparse, rfl⟩ := readLogEfuseMap_returns hs.coherent hread
  rw [hs.wifi, hs.cells, h] at hparse
  obtain ⟨rfl, rfl⟩ := Prod.mk.inj (Option.some.inj hparse)
  have hphys : copyMap s.cells (physMap s) = physMap s := copyMap_copyMap
  exact ⟨rfl, rfl, hs.cells, hs.wifi, hs.storing, fun _ => hphys, hphys.trans hs.cells⟩

theorem Begins.shift (hs : Begins phy s) :
    Begins phy { s with answers := fun n => s.answers (n + 1) } :=
  ⟨hs.wifi, hs.storing, hs.coherent, hs.cells⟩

def wordMask (offset : ℕ) : UInt8 := ((1 : UInt8) <<< UInt8.ofNat ((offset % 8) / 2)) ^^^ 0x0F

theorem wordMask_spec : ∀ w < 4, ((1 : UInt8) <<< UInt8.ofNat w) ^^^ 0x0F < 15 ∧
    enabledWords (((1 : UInt8) <<< UInt8.ofNat w) ^^^ 0x0F) = [w] := by
  decide +kernel

def wordEntry (offset : ℕ) : List (UInt8 × UInt8) := [(UInt8.ofNat (offset / 8), wordMask offset)]

theorem encodeEntries_wordEntry (newMap : Map) (hoffset : offset < eepromSize) :
    encodeEntries (wordEntry offset) newMap =
      logEntryHdr false offset ++ [newMap (offset / 2 * 2), newMap (offset / 2 * 2 + 1)] := by
  have hoffset : offset < 2048 := hoffset
  have hcell : 8 * (UInt8.ofNat (offset / 8)).toNat + 2 * (offset % 8 / 2) = offset / 2 * 2 := by
    rw [UInt8.toNat_ofNat', Nat.mod_eq_of_lt (by omega)]
    omega
  have hwords : enabledWords (wordMask offset) = [offset % 8 / 2] :=
    (wordMask_spec _ (by omega)).2
  simp only [encodeEntries, wordEntry, List.flatMap_cons, List.flatMap_nil, encodeEntry, hwords,
    entryCells, hcell, List.map_cons, List.map_nil, List.append_nil]
  rfl

theorem covered_wordEntry {c : ℕ} (hoffset : offset < eepromSize) :
    Covered (wordEntry offset) c ↔ c / 2 = offset / 2 := by
  have hoffset : offset < 2048 := hoffset
  have hwords : enabledWords (wordMask offset) = [offset % 8 / 2] :=
    (wordMask_spec _ (by omega)).2
  have hblk : (UInt8.ofNat (offset / 8)).toNat = offset / 8 := by
    rw [UInt8.toNat_ofNat', Nat.mod_eq_of_lt (by omega)]
  unfold Covered wordEntry
  constructor
  · rintro ⟨p, hp, hc, hw⟩
    obtain rfl := List.mem_singleton.mp hp
    rw [hblk] at hc
    rw [hwords, List.mem_singleton] at hw
    omega
  · intro hc
    refine ⟨_, List.mem_singleton.mpr rfl, ?_, ?_⟩
    · rw [hblk]
      omega
    · rw [hwords, List.mem_singleton]
      omega

theorem Accepted.extends_word (h : Accepted phy logMap efuseEnd)
    {es : List (List (ℕ × UInt8))} (hrec : Records readEntry phy secCtrlEfuseSize es efuseEnd)
    (hlog : logMap = overlay blank es.flatten) (hoffset : offset < eepromSize)
    {byte1 byte2 : UInt8} (h₁ : newMap (offset / 2 * 2) = byte1)
    (h₂ : newMap (offset / 2 * 2 + 1) = byte2)
    (hother : ∀ c, c / 2 ≠ offset / 2 → newMap c = logMap c)
    (hfit : 4 + efuseEnd < efuseSize) {t : Adapter} (ht : Begins phy t)
    (hwrite : Returns (writeBytes efuseEnd (logEntryHdr false offset ++ [byte1, byte2])) t () s') :
    Extends phy efuseEnd newMap s' := by
  obtain ⟨a, v, rfl, -⟩ := writeBytes_returns ht.storing hwrite
  have hbytes := encodeEntries_wordEntry newMap hoffset
  rw [h₁, h₂] at hbytes
  have hlen : (encodeEntries (wordEntry offset) newMap).length = 4 := by
    rw [hbytes]
    rfl
  refine h.extends_place hrec hlog (l := wordEntry offset) ?_ newMap (by omega) ?_
    fun c => ?_
  · intro p hp
    obtain rfl := List.mem_singleton.mp hp
    exact (wordMask_spec _ (by omega)).1
  · show copyMap (place t.cells efuseEnd _) t.efuseMap = _
    rw [← hbytes, copyMap_place (by omega)]
    exact congrArg (fun m => place m efuseEnd _) ht.cells
  · split
    · rfl
    · rename_i hc
      exact hother c (mt (covered_wordEntry hoffset).mpr hc)

def Tidy (phy : Map) (efuseEnd : ℕ) : Prop :=
  (maskParse phy).map Prod.snd = some efuseEnd ∨ efuseSize < efuseEnd + 4

theorem Accepted.records_of_tidy (h : Accepted phy logMap efuseEnd) (htidy : Tidy phy efuseEnd)
    (hroom : efuseEnd + 4 ≤ efuseSize) :
    ∃ es maskMap, Records readEntry phy secCtrlEfuseSize es efuseEnd ∧
      logMap = overlay blank es.flatten ∧ maskParse phy = some (maskMap, efuseEnd) := by
  obtain ⟨es, j, maskMap, hrec, hlog, hmask, -⟩ := records_of_parse h.parsed
  rcases htidy with hend | hfull
  · rw [hmask] at hend
    obtain rfl : j = efuseEnd := Option.some.inj hend
    exact ⟨es, maskMap, hrec, hlog, hmask⟩
  · omega

theorem Accepted.extends_byte (h : Accepted phy logMap efuseEnd) (htidy : Tidy phy efuseEnd)
    {value : UInt8} (hs : Begins phy s) (hoffset : offset < eepromSize)
    (hret : Returns (procWriteLogEfuse offset value) s () s') :
    Extends phy efuseEnd (Function.update logMap offset value) s' := by
  simp only [procWriteLogEfuse, returns_bind, expect_returns, returns_onlyIf, returns_look,
    returns_failIf] at hret
  obtain ⟨_, _, ⟨-, rfl⟩, map, t, hread, hrest⟩ := hret
  obtain ⟨rfl, hend, -, ht⟩ := hs.shift.readLogEfuseMap h.parsed hread
  rcases hrest with ⟨-, _, _, ⟨rfl, rfl⟩, _, _, ⟨rfl, rfl⟩, _, _, ⟨henough, rfl⟩, hwrite⟩ |
    ⟨hsame, rfl⟩
  · rw [ht.wifi, hend] at henough hwrite
    rw [if_pos (.inl rfl)] at henough
    obtain ⟨es, -, hrec, hlog, -⟩ := h.records_of_tidy htidy (by omega)
    refine h.extends_word hrec hlog hoffset ?_ ?_ (fun c hc => ?_) (by omega) ht hwrite
    · split
      · rw [show offset / 2 * 2 = offset by omega, Function.update_self]
      · rw [show offset / 2 * 2 = offset - 1 by omega, Function.update_of_ne (by omega)]
    · split
      · rw [show offset / 2 * 2 + 1 = offset + 1 by omega, Function.update_of_ne (by omega)]
      · rw [show offset / 2 * 2 + 1 = offset by omega, Function.update_self]
    · rw [Function.update_of_ne (by rintro rfl; exact hc rfl)]
  · refine h.extends_unchanged ht.cells ?_
    rw [← not_not.mp hsame, Function.update_eq_self]

theorem Accepted.extends_wordWrite (h : Accepted phy logMap efuseEnd) (htidy : Tidy phy efuseEnd)
    {value : UInt16} (hs : Begins phy s) (hoffset : offset < eepromSize) (heven : offset % 2 = 0)
    (hret : Returns (procWriteLogEfuseWord offset value) s () s') :
    Extends phy efuseEnd (Function.update (Function.update logMap offset (value &&& 0xFF).toUInt8)
      (offset + 1) ((value >>> 8) &&& 0xFF).toUInt8) s' := by
  simp only [procWriteLogEfuseWord, returns_bind, expect_returns, returns_onlyIf, returns_look,
    returns_failIf] at hret
  obtain ⟨_, _, ⟨-, rfl⟩, map, t, hread, hrest⟩ := hret
  obtain ⟨rfl, hend, -, ht⟩ := hs.shift.readLogEfuseMap h.parsed hread
  rcases hrest with ⟨-, _, _, ⟨rfl, rfl⟩, _, _, ⟨rfl, rfl⟩, _, _, ⟨-, rfl⟩, _, _, ⟨henough, rfl⟩,
    hwrite⟩ | ⟨hsame, rfl⟩
  · rw [hend] at henough
    rw [ht.wifi, hend] at hwrite
    obtain ⟨es, -, hrec, hlog, -⟩ := h.records_of_tidy htidy (by omega)
    refine h.extends_word hrec hlog hoffset ?_ ?_ (fun c hc => ?_) (by omega) ht hwrite
    · rw [show offset / 2 * 2 = offset by omega, Function.update_of_ne (by omega),
        Function.update_self]
    · rw [show offset / 2 * 2 + 1 = offset + 1 by omega, Function.update_self]
    · rw [Function.update_of_ne (by omega), Function.update_of_ne (by omega)]
  · obtain ⟨hlow, hhigh⟩ := not_not.mp hsame
    refine h.extends_unchanged ht.cells ?_
    rw [← hlow, ← hhigh, Function.update_eq_self, Function.update_eq_self]

theorem procPgEfuseByMap_returns {info : PgEfuseInfo} (h : Accepted phy logMap efuseEnd)
    (hs : Begins phy s) (hret : Returns (procPgEfuseByMap info) s () s') :
    ∃ maskMap j t, maskParse phy = some (maskMap, j) ∧ Begins phy t ∧
      s'.cells = place t.cells j (programBytes info (updatedMaskOf info logMap maskMap)) ∧
      s'.efuseMap = t.efuseMap := by
  simp only [procPgEfuseByMap, updateEepromMask, compareVersion, checkEfuseEnough, returns_bind,
    expect_returns, returns_look, returns_failIf, returns_pure, eepromMaskParser_returns] at hret
  obtain ⟨_, _, ⟨-, rfl⟩, _, _, ⟨-, rfl⟩, _, _,
    ⟨_, _, ⟨-, rfl⟩, map, t, hread, _, _, ⟨-, rfl⟩, _, _, ⟨rfl, rfl⟩, maskMap, _,
      ⟨j, hmask, rfl⟩, rfl, rfl⟩,
    _, _, ⟨_, _, ⟨rfl, rfl⟩, -, rfl⟩, hprogram⟩ := hret
  obtain ⟨rfl, hend, hmap, ht⟩ := hs.shift.shift.readLogEfuseMap h.parsed hread
  have hcells := programEfuse_returns (by exact ht.storing) hprogram
  rw [hmap] at hmask
  exact ⟨maskMap, j, t, hmask, ht, hcells⟩

theorem Accepted.extends_map (h : Accepted phy logMap efuseEnd) (htidy : Tidy phy efuseEnd)
    {info : PgEfuseInfo} (hs : Begins phy s) (hmod : info.efuseMapSize % 16 = 0)
    (hsize : info.efuseMapSize ≤ eepromSize) (hmasks : info.efuseMaskSize = info.efuseMapSize / 16)
    (hroom : Room phy logMap efuseEnd info) (hret : Returns (procPgEfuseByMap info) s () s') :
    Extends phy efuseEnd (maskedMap info logMap) s' := by
  obtain ⟨maskMap, j, t, hmask, ht, hcells, hmap⟩ := procPgEfuseByMap_returns h hs hret
  have hfit := hroom maskMap j hmask
  have hbytes := programBytes_eq info (updatedMaskOf info logMap maskMap) hsize
  have hphys : physMap s' = copyMap (place t.cells j
      (programBytes info (updatedMaskOf info logMap maskMap))) t.efuseMap := by
    unfold physMap
    rw [hcells, hmap]
  -- a selected word that is not written has its value already
  have hnew (c : ℕ) : maskedMap info logMap c =
      if Covered (newEntries info (updatedMaskOf info logMap maskMap)) c then info.efuseMap c
      else logMap c := by
    unfold maskedMap
    by_cases hc : c < info.efuseMapSize
    · have hsel := maskSelects_updatedMaskOf info logMap maskMap hmod hc hmasks
      have hcov := covered_newEntries (c := c)
        (updatedMaskOf info logMap maskMap) hmod hsize
      by_cases hprog : alreadyProgrammed info logMap maskMap (c / 2 * 2)
      · rw [if_neg fun hcov' => (hsel.mp (hcov.mp hcov').2).2 hprog]
        split
        · obtain ⟨⟨heven, hodd⟩, -⟩ := hprog
          rcases Nat.mod_two_eq_zero_or_one c with hpar | hpar
          · rwa [show c / 2 * 2 = c by omega] at heven
          · rwa [show c / 2 * 2 + 1 = c by omega] at hodd
        · rfl
      · refine if_congr ?_ rfl rfl
        rw [hcov, hsel]
        exact and_congr_right fun _ => (and_iff_left hprog).symm
    · rw [if_neg fun hc' => hc hc'.1,
        if_neg fun hcov => hc ((covered_newEntries _ hmod hsize).mp hcov).1]
  by_cases hnone : programBytes info (updatedMaskOf info logMap maskMap) = []
  · -- nothing to program
    have hempty : newEntries info (updatedMaskOf info logMap maskMap) = [] := by
      rw [hnone] at hbytes
      rcases hl : newEntries info (updatedMaskOf info logMap maskMap) with _ | ⟨p, l⟩
      · rfl
      · rw [hl] at hbytes
        cases hbytes
    refine h.extends_unchanged ?_ ?_
    · rw [hphys, hnone, place_nil]
      exact ht.cells
    · funext c
      rw [hnew, hempty, if_neg]
      rintro ⟨p, hp, -⟩
      cases hp
  · have hfour : efuseEnd + 4 ≤ efuseSize := by
      have hlen : 4 ≤ (programBytes info (updatedMaskOf info logMap maskMap)).length := by
        rw [hbytes] at hnone ⊢
        rcases hl : newEntries info (updatedMaskOf info logMap maskMap) with _ | ⟨p, l⟩
        · exact absurd (by rw [hl]; rfl) hnone
        · have hp := newEntries_lt info (updatedMaskOf info logMap maskMap) p (by rw [hl]; simp)
          have hwords := enabledWords_ne_nil p.2.toNat hp
          rw [UInt8.ofNat_toNat] at hwords
          have hpos := List.length_pos_of_ne_nil hwords
          show 4 ≤ (encodeEntry p.1 p.2 info.efuseMap ++ encodeEntries l info.efuseMap).length
          rw [List.length_append, encodeEntry_length]
          omega
      omega
    obtain ⟨es, maskMap', hrec, hlog, hmask'⟩ := h.records_of_tidy htidy hfour
    rw [hmask] at hmask'
    obtain ⟨rfl, rfl⟩ := Prod.mk.inj (Option.some.inj hmask')
    refine h.extends_place hrec hlog (newEntries_lt info (updatedMaskOf info logMap maskMap))
      info.efuseMap (by rwa [← hbytes]) ?_ hnew
    rw [hphys, copyMap_place hfit, ← hbytes]
    exact congrArg (fun m => place m _ _) ht.cells

/-! ## A first header byte alone -/

def otherBlock (hdr : UInt8) : ℕ := if hdr = 0x30 then 17 else 1

theorem otherBlock_cases (hdr : UInt8) :
    (otherBlock hdr = 1 ∨ otherBlock hdr = 17) ∧ entryHdr (UInt8.ofNat (otherBlock hdr)) ≠ hdr := by
  unfold otherBlock
  split
  · rename_i h
    rw [h]
    exact ⟨.inr rfl, by decide⟩
  · rename_i h
    exact ⟨.inl rfl, fun heq => h (heq.symm.trans (by decide))⟩

def oneWord (logMap : Map) (b : ℕ) : PgEfuseInfo where
  efuseMap := fun c => if c < eepromSize then ~~~ logMap c else 0x00
  efuseMapSize := eepromSize
  efuseMask := Function.update (fun _ => 0x00) (b / 2) 0x01
  efuseMaskSize := eepromSize / 16

theorem oneWord_mask (b k : ℕ) :
    (oneWord logMap b).efuseMask k = if k = b / 2 then 0x01 else 0x00 :=
  Function.update_apply (fun _ => 0x00) (b / 2) 0x01 k

theorem oneWord_size (b : ℕ) : (oneWord logMap b).efuseMapSize = 2048 := rfl

theorem oneWord_mod (logMap : Map) (b : ℕ) :
    (oneWord logMap b).efuseMapSize % 16 = 0 := by rw [oneWord_size]

def holding (phy : Map) : Adapter where
  cells := phy
  burn := fun _ _ value => value
  efuseMap := phy
  efuseMapNull := false
  efuseMapValid := true

theorem physMap_holding : physMap (holding phy) = phy := by
  funext n
  exact ite_self (phy n)

theorem begins_holding : Begins phy (holding phy) :=
  ⟨rfl, fun _ _ _ => rfl, fun _ => physMap_holding, physMap_holding⟩

theorem answering_holding (phy : Map) : Answering (holding phy) := fun _ => rfl

theorem updatedMaskOf_oneWord {b k : ℕ} (maskMap : Map) (hk : k < 128) :
    updatedMaskOf (oneWord logMap b) logMap maskMap k = (oneWord logMap b).efuseMask k := by
  have hnot (c : ℕ) (hc : c < 2048) : ¬ alreadyProgrammed (oneWord logMap b) logMap maskMap c := by
    rintro ⟨⟨heq, -⟩, -⟩
    have hval : (oneWord logMap b).efuseMap c = ~~~ logMap c := if_pos hc
    rw [hval] at heq
    have hne : ∀ x : UInt8, ~~~ x ≠ x := by decide +kernel
    exact hne _ heq
  rw [updatedMaskOf_apply (oneWord logMap b) logMap maskMap (oneWord_mod logMap b)
    (by rw [oneWord_size]; exact hk) rfl]
  have hskip (js : List ℕ) (hjs : ∀ j ∈ js, j < 16) (x : UInt8) :
      clearBits (fun j => alreadyProgrammed (oneWord logMap b) logMap maskMap (16 * k + j)) js x =
        x := by
    induction js with
    | nil => rfl
    | cons j js ih =>
      have hj := hjs j List.mem_cons_self
      unfold clearBits
      rw [List.foldl_cons, if_neg (hnot _ (by omega))]
      exact ih fun i hi => hjs i (List.mem_cons_of_mem j hi)
  exact hskip _ (fun j hj => ((mem_strides (by omega)).mp hj).1) _

theorem oneWord_bytes (logMap : Map) {b : ℕ} (hb : b = 1 ∨ b = 17) (maskMap : Map) :
    evenBytes (oneWord logMap b) (updatedMaskOf (oneWord logMap b) logMap maskMap) = 0 ∧
      oddBytes (oneWord logMap b) (updatedMaskOf (oneWord logMap b) logMap maskMap) = 4 := by
  have hrange : (oneWord logMap b).efuseMapSize / 16 = 128 := by rw [oneWord_size]
  unfold evenBytes oddBytes
  rw [hrange]
  constructor
  · refine Finset.sum_eq_zero fun k hk => ?_
    rw [updatedMaskOf_oneWord maskMap (Finset.mem_range.mp hk), oneWord_mask]
    split <;> rfl
  · rw [Finset.sum_eq_single_of_mem (b / 2) (Finset.mem_range.mpr (by omega)) fun k hk hkb => ?_]
    · rw [updatedMaskOf_oneWord maskMap (by omega), oneWord_mask, if_pos rfl]
      rfl
    · rw [updatedMaskOf_oneWord maskMap (Finset.mem_range.mp hk), oneWord_mask, if_neg hkb]
      rfl

theorem oneWord_head (logMap : Map) {b : ℕ} (hb : b = 1 ∨ b = 17) (maskMap : Map) :
    ∃ bs, programBytes (oneWord logMap b) (updatedMaskOf (oneWord logMap b) logMap maskMap) =
      entryHdr (UInt8.ofNat b) :: bs := by
  have hbytes := programBytes_eq (oneWord logMap b)
    (updatedMaskOf (oneWord logMap b) logMap maskMap) le_rfl
  have hlen := length_programBytes
    (updatedMaskOf (oneWord logMap b) logMap maskMap) (oneWord_mod logMap b)
  obtain ⟨heven, hodd⟩ := oneWord_bytes logMap hb maskMap
  rcases hl : newEntries (oneWord logMap b) (updatedMaskOf (oneWord logMap b) logMap maskMap)
    with _ | ⟨p, l⟩
  · rw [hl] at hbytes
    rw [hbytes, heven, hodd] at hlen
    cases hlen
  · -- every entry is one of the word's block
    have hp : p ∈ newEntries (oneWord logMap b)
        (updatedMaskOf (oneWord logMap b) logMap maskMap) := by rw [hl]; exact List.mem_cons_self
    unfold newEntries at hp
    obtain ⟨i, hi, rfl⟩ := List.mem_map.mp hp
    obtain ⟨hi, hpos⟩ := List.mem_filter.mp hi
    obtain ⟨hlt, hmod⟩ := (mem_strides (by omega)).mp hi
    have hlt : i < 2048 := hlt
    have hpos : pgPreWordEn (updatedMaskOf (oneWord logMap b) logMap maskMap) i > 0 := by
      simpa using hpos
    have hblk : i / 8 = b := by
      unfold pgPreWordEn at hpos
      rw [updatedMaskOf_oneWord maskMap (by omega), Nat.and_one_is_mod, oneWord_mask] at hpos
      by_cases hkb : i / 16 = b / 2
      · rw [if_pos hkb] at hpos
        split at hpos
        · omega
        · exact absurd hpos (by decide)
      · rw [if_neg hkb] at hpos
        split at hpos <;> exact absurd hpos (by decide)
    rw [hbytes, hl, ← hblk]
    exact ⟨_, rfl⟩

theorem programmed_over_loneHeader {j : ℕ} {maskMap : Map} (h : Accepted phy logMap efuseEnd)
    (hmask : maskParse phy = some (maskMap, j)) (hj : efuseEnd = j + 1)
    (hroom : efuseEnd + 4 ≤ efuseSize) :
    ∃ s', Returns (procPgEfuseByMap (oneWord logMap (otherBlock (phy j)))) (holding phy) () s' ∧
      physMap s' j ≠ phy j := by
  obtain ⟨hb, hhdr⟩ := otherBlock_cases (phy j)
  generalize otherBlock (phy j) = b at hb hhdr
  obtain ⟨heven, hodd⟩ := oneWord_bytes logMap hb maskMap
  have hplan := pgNum_eq
    (updatedMaskOf (oneWord logMap b) logMap maskMap) (oneWord_mod logMap b)
  have hlen := length_programBytes
    (updatedMaskOf (oneWord logMap b) logMap maskMap) (oneWord_mod logMap b)
  obtain ⟨bs, hhead⟩ := oneWord_head logMap hb maskMap
  -- the run up to the programmer
  have hversion :
      ∀ i < pgVerLen, (oneWord logMap b).efuseMap ((oneWord logMap b).efuseMapSize + i) =
      (oneWord logMap b).efuseMask ((oneWord logMap b).efuseMaskSize + i) := by
    intro i _
    have hval : (oneWord logMap b).efuseMap ((oneWord logMap b).efuseMapSize + i) = 0x00 :=
      if_neg (Nat.not_lt.mpr (Nat.le_add_right eepromSize i))
    rw [hval, oneWord_mask, if_neg]
    show ¬ 128 + i = b / 2
    omega
  have hread : Returns readLogEfuseMap (holding phy) logMap
      { holding phy with efuseEnd := efuseEnd } := by
    simp only [readLogEfuseMap, returns_bind, returns_look, returns_onlyIf, eepromParser_returns]
    exact ⟨_, _, ⟨rfl, rfl⟩, (), _, .inr ⟨Bool.noConfusion, rfl⟩, _, _, ⟨rfl, rfl⟩, efuseEnd,
      h.parsed, rfl⟩
  have hupdate : Returns (updateEepromMask (oneWord logMap b)) (holding phy)
      (updatedMaskOf (oneWord logMap b) logMap maskMap) { holding phy with efuseEnd := j } := by
    simp only [updateEepromMask, returns_bind, expect_returns, returns_look, returns_pure,
      eepromMaskParser_returns]
    exact ⟨(), _, ⟨rfl, rfl⟩, logMap, _, hread, (), _, ⟨rfl, rfl⟩, _, _, ⟨rfl, rfl⟩, maskMap, _,
      ⟨j, hmask, rfl⟩, rfl, rfl⟩
  obtain ⟨s', hprogram⟩ := @programEfuse_succeeds { holding phy with efuseEnd := j }
    (oneWord logMap b) (updatedMaskOf (oneWord logMap b) logMap maskMap) (answering_holding phy)
    (cellsTake_of_not_check rfl)
  refine ⟨s', ?_, ?_⟩
  · simp only [procPgEfuseByMap, compareVersion, checkEfuseEnough, returns_bind, returns_failIf,
      expect_returns, returns_look]
    refine ⟨(), _, ⟨not_not.mpr hversion, rfl⟩, (), _, ⟨rfl, rfl⟩, _, _, hupdate, (), _,
      ⟨_, _, ⟨rfl, rfl⟩, ?_, rfl⟩, hprogram⟩
    show ¬ efuseSize ≤ _ + j
    omega
  · obtain ⟨hcells, -⟩ := programEfuse_returns (fun _ _ _ => rfl) hprogram
    have hbyte : physMap s' j = entryHdr (UInt8.ofNat b) := by
      unfold physMap copyMap
      rw [if_pos (by omega), hcells, hhead]
      exact place_get (k := 0) (by simp)
    rw [hbyte]
    exact hhdr

/-- **The maps that take every write**: the two parsers stop at the same byte, or there is no room
for an entry. -/
theorem roundTrips_iff (h : Accepted phy logMap efuseEnd) :
    RoundTrips phy logMap efuseEnd ↔
      (maskParse phy).map Prod.snd = some efuseEnd ∨ efuseSize < efuseEnd + 4 := by
  constructor
  · intro hround
    by_contra htidy
    obtain ⟨hend, hroom⟩ := not_or.mp htidy
    obtain ⟨es, j, maskMap, hrec, hlog, hmask, -, rfl | ⟨rfl, hlt, hne⟩⟩ :=
      records_of_parse h.parsed
    · exact hend (by rw [hmask]; rfl)
    · obtain ⟨s', hret, hover⟩ := programmed_over_loneHeader h hmask rfl (by omega)
      refine hover
        ((hround.map _ s' _ begins_holding (oneWord_mod _ _) le_rfl rfl ?_ hret).2 j (by omega))
      intro maskMap' e _
      obtain ⟨heven, hodd⟩ :=
        oneWord_bytes logMap (otherBlock_cases (phy j)).1 maskMap'
      rw [length_programBytes _ (oneWord_mod _ _), heven, hodd]
      omega
  · intro htidy
    exact ⟨fun s s' offset value hs hoffset hret => h.extends_byte htidy hs hoffset hret,
      fun s s' offset value hs hoffset heven hret =>
        h.extends_wordWrite htidy hs hoffset heven hret,
      fun s s' info hs hmod hsize hmasks hroom hret =>
        h.extends_map htidy hs hmod hsize hmasks hroom hret⟩

theorem accepted_blank : Accepted blank blank 4 :=
  ⟨eepromParse_eq_some_iff.mpr ⟨[], 4, .nil 4, rfl, by decide⟩, fun _ _ _ => rfl⟩

theorem roundTrips_blank : RoundTrips blank blank 4 :=
  (roundTrips_iff accepted_blank).mpr
    (.inl (by
      rw [maskParse_of_records (.nil 4) (readMaskHdr_eq_stop.mpr ⟨.inr (.inl rfl), rfl⟩)]
      rfl))

/-- A programming that was cut off after its first byte leaves a map on which later writes go
wrong. -/
theorem not_roundTrips_loneHeader :
    ¬ ∀ (phy logMap : Map) (efuseEnd : ℕ), Accepted phy logMap efuseEnd →
      RoundTrips phy logMap efuseEnd := by
  intro hall
  -- the byte at the beginning of the entries, with nothing behind it
  have h : Accepted (Function.update blank 4 0x30) blank 5 := by
    refine ⟨eepromParse_eq_some_iff.mpr ⟨[], 4, .nil 4, rfl, by decide⟩, fun n hn _ => ?_⟩
    rw [Function.update_of_ne (by omega)]
    rfl
  obtain ⟨maskMap, hmask⟩ : ∃ m, maskParse (Function.update blank 4 0x30) = some (m, 4) :=
    ⟨_, maskParse_of_records (.nil 4) (readMaskHdr_eq_stop.mpr ⟨.inr (.inr rfl), rfl⟩)⟩
  obtain ⟨s', hret, hover⟩ := programmed_over_loneHeader h hmask rfl (by decide)
  refine hover
    (((hall _ _ _ h).map _ s' _ begins_holding (oneWord_mod _ _) le_rfl rfl ?_ hret).2 4 (by omega))
  intro maskMap' e _
  obtain ⟨heven, hodd⟩ := oneWord_bytes blank
    (otherBlock_cases (Function.update blank 4 0x30 4)).1 maskMap'
  rw [length_programBytes _ (oneWord_mod _ _), heven, hodd]
  decide

end Rtl88x2eu.Efuse
