import Rtl88x2eu.Efuse.Bounds

/-!
# The two parsers of the efuse

The mask parser is a copy of the eeprom parser. They come to the same entries and store to the same
cells, but the eeprom parser steps over the first byte of a header before it looks at the second
one: where that is blank, the two leave a different end behind.

## Main definitions

* `Agree`

## Main results

* `pass_lockstep`, `passStores_eq`: the walks go on alike
* `agree_iff`: the parsers agree where no header is cut behind its first byte
-/

namespace Rtl88x2eu.Efuse

open RecordLog

variable {hw : HwCfgInfo} {phy : Map} {i k fuel : ℕ}

/-- **The parsers agree**: in what they return, in the end they leave behind, and in the cells. -/
structure Agree (hw : HwCfgInfo) (phy : Map) : Prop where
  returns : ∃ fuel, (eepromParser8822e hw false phy fuel).isSome ∧
    (eepromMaskParser8822e hw phy fuel).isSome
  efuseEnd : ∀ fuel r r', eepromParser8822e hw false phy fuel = some r →
    eepromMaskParser8822e hw phy fuel = some r' → r.efuseEnd = r'.efuseEnd
  mask : ∀ fuel r r', eepromParser8822e hw false phy fuel = some r →
    eepromMaskParser8822e hw phy fuel = some r' →
      ∀ c, r'.logMap c = if c ∈ r.stores.map Prod.fst then 0x00 else 0xff

theorem maskHdr_eq_entry {b w : UInt8} :
    maskHdr hw phy i = .entry b w k ↔ eepromHdr hw false phy i = .entry b w k := by
  unfold maskHdr eepromHdr
  split_ifs <;> simp_all

theorem pass_lockstep (i k : ℕ) :
    pass hw (eepromHdr hw false phy) i = .inl k ↔ pass hw (maskHdr hw phy) i = .inl k := by
  unfold pass
  cases hhdr : eepromHdr hw false phy i with
  | entry b w n => rw [(maskHdr_eq_entry).mpr hhdr]
  | stop e =>
    cases hmask : maskHdr hw phy i with
    | entry b w n =>
      rw [(maskHdr_eq_entry).mp hmask] at hhdr
      cases hhdr
    | stop e' => exact iff_of_false nofun nofun

theorem passStores_eq (i : ℕ) :
    passStores hw (maskHdr hw phy) i = passStores hw (eepromHdr hw false phy) i := by
  unfold passStores
  cases hhdr : eepromHdr hw false phy i with
  | entry b w n => rw [(maskHdr_eq_entry).mpr hhdr]
  | stop e =>
    cases hmask : maskHdr hw phy i with
    | entry b w n =>
      rw [(maskHdr_eq_entry).mp hmask] at hhdr
      cases hhdr
    | stop e' => rfl

/-- The first byte of a header stands alone. -/
def Lone (hw : HwCfgInfo) (phy : Map) (i : ℕ) : Prop :=
  i < hw.efuseSize ∧ phy i ≠ 0xff ∧ phy (i + 1) = 0xff

theorem stops_iff {r r' : Option ℕ} (hr : pass hw (eepromHdr hw false phy) i = .inr r)
    (hr' : pass hw (maskHdr hw phy) i = .inr r') : r = r' ↔ ¬Lone hw phy i := by
  unfold pass at hr hr'
  unfold Lone
  cases hhdr : eepromHdr hw false phy i with
  | entry b w n =>
    rw [hhdr] at hr
    rw [(maskHdr_eq_entry).mpr hhdr] at hr'
    dsimp only at hr hr'
    have heq : r = r' := Sum.inr.inj (hr.symm.trans hr')
    refine iff_of_true heq ?_
    rintro ⟨hlt, hne, hsecond⟩
    unfold eepromHdr at hhdr
    rw [if_neg (by omega), if_neg hne, if_neg (by decide), if_pos hsecond] at hhdr
    cases hhdr
  | stop e =>
    cases hmask : maskHdr hw phy i with
    | entry b w n =>
      rw [(maskHdr_eq_entry).mp hmask] at hhdr
      cases hhdr
    | stop e' =>
      rw [hhdr] at hr
      rw [hmask] at hr'
      obtain rfl := Sum.inr.inj hr
      obtain rfl := Sum.inr.inj hr'
      unfold eepromHdr at hhdr
      unfold maskHdr at hmask
      split_ifs at hhdr hmask <;> obtain rfl := Hdr.stop.inj hhdr <;>
        obtain rfl := Hdr.stop.inj hmask <;> simp_all

theorem pass_of_lone (h : Lone hw phy i) :
    pass hw (eepromHdr hw false phy) i = .inr (some (i + 1)) ∧
      pass hw (maskHdr hw phy) i = .inr (some i) := by
  obtain ⟨hlt, hne, hsecond⟩ := h
  unfold pass eepromHdr maskHdr
  rw [if_neg (by omega), if_neg hne, if_neg (by decide), if_pos hsecond, if_neg (by omega),
    if_neg hne, if_pos hsecond]
  exact ⟨rfl, rfl⟩

theorem logMap_mask {r r' : Parse} (hr : eepromParser8822e hw false phy fuel = some r)
    (hr' : eepromMaskParser8822e hw phy fuel = some r') (c : ℕ) :
    r'.logMap c = if c ∈ r.stores.map Prod.fst then 0x00 else 0xff := by
  obtain ⟨e, -, rfl⟩ := Option.map_eq_some_iff.mp hr
  obtain ⟨e', -, rfl⟩ := Option.map_eq_some_iff.mp hr'
  have hlog : passStores hw (maskHdr hw phy) = passStores hw (eepromHdr hw false phy) :=
    funext passStores_eq
  have htrace : Loop.trace (passStores hw (maskHdr hw phy)) (pass hw (maskHdr hw phy)) fuel
      secCtrlEfuseSize = Loop.trace (passStores hw (eepromHdr hw false phy))
        (pass hw (eepromHdr hw false phy)) fuel secCtrlEfuseSize := by
    rw [hlog, Loop.trace_lockstep pass_lockstep]
  unfold Parse.logMap
  dsimp only
  rw [htrace, overlay_of_values (g := fun _ => 0x00), List.map_map, List.map_map]
  · rfl
  · intro a ha
    obtain ⟨x, -, rfl⟩ := List.mem_map.mp ha
    rfl

/-- **The parsers agree exactly if no header is cut** behind its first byte where an entry may
begin. -/
theorem agree_iff (hw : HwCfgInfo) (phy : Map) :
    Agree hw phy ↔ ∀ i, Visited hw (eepromHdr hw false phy) i → ¬Lone hw phy i := by
  have hrun := isSome_walk (progress_eepromHdr hw false phy) (Nat.lt_succ_self hw.efuseSize)
  have hrun' := isSome_walk (progress_maskHdr hw phy) (Nat.lt_succ_self hw.efuseSize)
  constructor
  · intro h i hi hlone
    obtain ⟨hstop, hstop'⟩ := pass_of_lone hlone
    have hend := Loop.iterate_of_reaches hrun hi hstop
    have hend' := Loop.iterate_of_reaches hrun' (hi.lockstep pass_lockstep) hstop'
    have heq := h.efuseEnd _ _ _ (congrArg (Option.map _) hend) (congrArg (Option.map _) hend')
    exact absurd (Option.some.inj heq) (Nat.succ_ne_self i)
  · intro h
    refine ⟨⟨hw.efuseSize + 1, ?_, ?_⟩, fun fuel r r' hr hr' => ?_, fun fuel r r' => logMap_mask⟩
    · exact (Option.isSome_map ..).trans hrun
    · exact (Option.isSome_map ..).trans hrun'
    · obtain ⟨e, he, rfl⟩ := Option.map_eq_some_iff.mp hr
      obtain ⟨e', he', rfl⟩ := Option.map_eq_some_iff.mp hr'
      obtain ⟨i, hi, hstop, hstop'⟩ := Loop.exists_lockstep pass_lockstep he he'
      exact (stops_iff hstop hstop').mpr (h i hi)

/-- The first byte of a header on a blank map: the ends are 5 and 4. -/
theorem not_agree : ¬∀ (hw : HwCfgInfo) (phy : Map), Agree hw phy := by
  intro h
  have hend := (h hwCfg8822e (Function.update blank 4 0x30)).efuseEnd 1 _ _ rfl rfl
  revert hend
  decide

end Rtl88x2eu.Efuse
