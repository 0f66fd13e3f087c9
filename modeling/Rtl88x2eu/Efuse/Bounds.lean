import Mathlib.Algebra.Ring.Parity
import Rtl88x2eu.Efuse.Map
import Rtl88x2eu.Lib.Loop

/-!
# What the parsers of the efuse touch

The parsers for maps of any sizes, with the addresses that they read and the cells that they store
to. A parser looks at the byte behind the map where the last byte of the map begins a two-byte
header, and the eeprom parser also where a word of an entry ends the map and another one is due.

## Main definitions

* `HwCfgInfo`
* `pass`, `passStores`: one entry of a walk, and what it stores
* `eepromParser8822e`, `eepromMaskParser8822e`: what the parsers return and touch
* `InBounds`
* `HdrWhole`, `WordsWhole`: an entry does not run over the end

## Main results

* `eepromParser_eq`, `maskParser_eq`: the parsers at the sizes of the chip
* `reads_wordStores_iff`: when the words of an entry stay inside
* `parsers_inBounds_iff`: when both parsers do
-/

namespace Rtl88x2eu.Efuse

open RecordLog

/-! ## The parsers -/

/-- The sizes of the two maps. -/
structure HwCfgInfo where
  efuseSize : ℕ
  eepromSize : ℕ

/-- The sizes of the chip. -/
def hwCfg8822e : HwCfgInfo := ⟨efuseSize, eepromSize⟩

/-- The header in `eeprom_parser_8822e`. -/
def eepromHdr (hw : HwCfgInfo) (btSwitch : Bool) (phy : Map) (efuseIdx : ℕ) : Hdr :=
  if efuseIdx ≥ hw.efuseSize then .stop efuseIdx
  else if phy efuseIdx = 0xff then .stop efuseIdx
  else if btSwitch then
    if phy efuseIdx &&& 0xF ≠ 0xF then
      .entry ((phy efuseIdx &&& 0xF0) >>> 4) (phy efuseIdx &&& 0x0F) (efuseIdx + 1)
    else if phy (efuseIdx + 1) = 0xff then .stop (efuseIdx + 1)
    else
      .entry
        ((((phy (efuseIdx + 1) &&& 0xF0) >>> 4) <<< 3) + (((phy efuseIdx &&& 0xF0) >>> 4) >>> 1))
        (phy (efuseIdx + 1) &&& 0x0F) (efuseIdx + 2)
  else if phy (efuseIdx + 1) = 0xff then .stop (efuseIdx + 1)
  else
    .entry (blkIdxOf (phy efuseIdx) (phy (efuseIdx + 1))) (phy (efuseIdx + 1) &&& 0x0F)
      (efuseIdx + 2)

/-- The header in `eeprom_mask_parser_8822e`. -/
def maskHdr (hw : HwCfgInfo) (phy : Map) (efuseIdx : ℕ) : Hdr :=
  if efuseIdx ≥ hw.efuseSize then .stop efuseIdx
  else if phy efuseIdx = 0xff then .stop efuseIdx
  else if phy (efuseIdx + 1) = 0xff then .stop efuseIdx
  else
    .entry (blkIdxOf (phy efuseIdx) (phy (efuseIdx + 1))) (phy (efuseIdx + 1) &&& 0x0F)
      (efuseIdx + 2)

def hdrReads (hw : HwCfgInfo) (btSwitch : Bool) (phy : Map) (efuseIdx : ℕ) : List ℕ :=
  if efuseIdx ≥ hw.efuseSize then []
  else if phy efuseIdx = 0xff ∨ (btSwitch ∧ phy efuseIdx &&& 0xF ≠ 0xF) then [efuseIdx]
  else [efuseIdx, efuseIdx + 1]

def wordStores (hw : HwCfgInfo) (blkIdx wordEn : UInt8) : List ℕ → ℕ → List (ℕ × ℕ) × Option ℕ
  | [], efuseIdx => ([], some efuseIdx)
  | i :: is, efuseIdx =>
    if wordValid wordEn i then
      let eepromIdx := 8 * blkIdx.toNat + 2 * i
      if eepromIdx + 1 > hw.eepromSize then ([], none)
      else if efuseIdx + 1 > hw.efuseSize - 1 then ([(eepromIdx, efuseIdx)], none)
      else
        let stores := [(eepromIdx, efuseIdx), (eepromIdx + 1, efuseIdx + 1)]
        if efuseIdx + 2 > hw.efuseSize then (stores, none)
        else
          let rest := wordStores hw blkIdx wordEn is (efuseIdx + 2)
          (stores ++ rest.1, rest.2)
    else wordStores hw blkIdx wordEn is efuseIdx

def entryStores (hw : HwCfgInfo) (blkIdx wordEn : UInt8) (next : ℕ) : List (ℕ × ℕ) × Option ℕ :=
  if next ≥ hw.efuseSize - 1 then ([], none) else wordStores hw blkIdx wordEn [0, 1, 2, 3] next

/-- One pass of the `do` loop; without an end it is `HALMAC_RET_EEPROM_PARSING_FAIL`. -/
def pass (hw : HwCfgInfo) (hdr : ℕ → Hdr) (efuseIdx : ℕ) : ℕ ⊕ Option ℕ :=
  match hdr efuseIdx with
  | .stop efuseEnd => .inr (some efuseEnd)
  | .entry blkIdx wordEn next =>
    match (entryStores hw blkIdx wordEn next).2 with
    | some efuseIdx => .inl efuseIdx
    | none => .inr none

def passStores (hw : HwCfgInfo) (hdr : ℕ → Hdr) (efuseIdx : ℕ) : List (ℕ × ℕ) :=
  match hdr efuseIdx with
  | .stop _ => []
  | .entry blkIdx wordEn next => (entryStores hw blkIdx wordEn next).1

structure Parse where
  efuseEnd : Option ℕ
  reads : List ℕ
  stores : List (ℕ × UInt8)

/-- The logical map or mask, behind `PLTFM_MEMSET`. -/
def Parse.logMap (r : Parse) : Map := overlay blank r.stores

/-- The walk of both parsers: the passes read what `log` says, and store the bytes of `data`. -/
def walk (hw : HwCfgInfo) (hdr : ℕ → Hdr) (log : ℕ → List ℕ) (data : Map) (fuel : ℕ) :
    Option Parse :=
  (Loop.iterate (pass hw hdr) fuel secCtrlEfuseSize).map fun efuseEnd =>
    { efuseEnd
      reads := Loop.trace log (pass hw hdr) fuel secCtrlEfuseSize
      stores := (Loop.trace (passStores hw hdr) (pass hw hdr) fuel secCtrlEfuseSize).map
        fun x => (x.1, data x.2) }

def eepromReads (hw : HwCfgInfo) (btSwitch : Bool) (phy : Map) (efuseIdx : ℕ) : List ℕ :=
  hdrReads hw btSwitch phy efuseIdx ++
    (passStores hw (eepromHdr hw btSwitch phy) efuseIdx).map Prod.snd

/-- `eeprom_parser_8822e`, with a bound on its passes. -/
def eepromParser8822e (hw : HwCfgInfo) (btSwitch : Bool) (phy : Map) : ℕ → Option Parse :=
  walk hw (eepromHdr hw btSwitch phy) (eepromReads hw btSwitch phy) phy

/-- `eeprom_mask_parser_8822e`, with a bound on its passes. -/
def eepromMaskParser8822e (hw : HwCfgInfo) (phy : Map) : ℕ → Option Parse :=
  walk hw (maskHdr hw phy) (hdrReads hw false phy) fun _ => 0x00

/-- **A parser ends and stays inside the maps.** -/
structure InBounds (hw : HwCfgInfo) (parser : ℕ → Option Parse) : Prop where
  ends : ∃ fuel, (parser fuel).isSome
  reads : ∀ fuel r, parser fuel = some r → ∀ a ∈ r.reads, a < hw.efuseSize
  stores : ∀ fuel r, parser fuel = some r → ∀ x ∈ r.stores, x.1 < hw.eepromSize

/-- A walk comes to an address. -/
def Visited (hw : HwCfgInfo) (hdr : ℕ → Hdr) (efuseIdx : ℕ) : Prop :=
  Loop.Reaches (pass hw hdr) secCtrlEfuseSize efuseIdx

/-- The last byte of the map ends the entries, or is a header of its own. -/
def HdrWhole (hw : HwCfgInfo) (btSwitch : Bool) (phy : Map) (efuseIdx : ℕ) : Prop :=
  efuseIdx + 1 = hw.efuseSize →
    phy efuseIdx = 0xff ∨ (btSwitch ∧ phy efuseIdx &&& 0xF ≠ 0xF)

def WordsWhole (hw : HwCfgInfo) (btSwitch : Bool) (phy : Map) (efuseIdx : ℕ) : Prop :=
  ∀ blkIdx wordEn next, eepromHdr hw btSwitch phy efuseIdx = .entry blkIdx wordEn next →
    next + 1 < hw.efuseSize → ∀ j < (enabledWords wordEn).length, next + 2 * j = hw.efuseSize →
      ∃ i ∈ (enabledWords wordEn).take (j + 1), hw.eepromSize < 8 * blkIdx.toNat + 2 * i + 1

variable {hw : HwCfgInfo} {btSwitch : Bool} {phy : Map} {hdr : ℕ → Hdr} {blkIdx wordEn : UInt8}
  {is : List ℕ} {efuseIdx idx' next fuel : ℕ}

/-- **When the words of an entry stay inside** the physical map. -/
theorem reads_wordStores_iff (hidx : efuseIdx ≤ hw.efuseSize) :
    (∀ x ∈ (wordStores hw blkIdx wordEn is efuseIdx).1, x.2 < hw.efuseSize) ↔
      ∀ j < (is.filter (wordValid wordEn)).length, efuseIdx + 2 * j = hw.efuseSize →
        ∃ i ∈ (is.filter (wordValid wordEn)).take (j + 1),
          hw.eepromSize < 8 * blkIdx.toNat + 2 * i + 1 := by
  induction is generalizing efuseIdx with
  | nil => simp [wordStores]
  | cons i is ih =>
    rw [wordStores]
    by_cases hvalid : wordValid wordEn i
    · rw [if_pos hvalid, List.filter_cons_of_pos hvalid, List.length_cons]
      dsimp only
      by_cases hcell : 8 * blkIdx.toNat + 2 * i + 1 > hw.eepromSize
      · -- the word is refused, and with it the entry
        rw [if_pos hcell]
        refine iff_of_true (fun x hx => (nomatch hx)) fun j _ _ => ⟨i, ?_, hcell⟩
        rw [List.take_succ_cons]
        exact List.mem_cons_self
      · rw [if_neg hcell]
        by_cases hroom : efuseIdx + 1 > hw.efuseSize - 1
        · rw [if_pos hroom]
          constructor
          · intro hread
            have hlt : efuseIdx < hw.efuseSize := hread _ (List.mem_singleton_self _)
            intro j _ hj
            omega
          · intro hdue x hx
            obtain rfl := List.mem_singleton.mp hx
            refine lt_of_le_of_ne hidx fun hend => ?_
            obtain ⟨i', hi', hlarge⟩ := hdue 0 (Nat.succ_pos _) hend
            rw [List.take_succ_cons, List.take_zero, List.mem_singleton] at hi'
            subst hi'
            exact hcell hlarge
        · rw [if_neg hroom, if_neg (by omega)]
          have hrest := ih (show efuseIdx + 2 ≤ hw.efuseSize by omega)
          rw [List.forall_mem_append, hrest]
          constructor
          · rintro ⟨-, hdue⟩ j hj hend
            cases j with
            | zero => omega
            | succ j =>
              obtain ⟨i', hi', hlarge⟩ := hdue j (by omega) (by omega)
              rw [List.take_succ_cons]
              exact ⟨i', List.mem_cons_of_mem _ hi', hlarge⟩
          · intro hdue
            refine ⟨?_, fun j hj hend => ?_⟩
            · simp only [List.mem_cons, List.not_mem_nil, or_false]
              rintro x (rfl | rfl)
              · change efuseIdx < hw.efuseSize
                omega
              · change efuseIdx + 1 < hw.efuseSize
                omega
            · obtain ⟨i', hi', hlarge⟩ := hdue (j + 1) (by omega) (by omega)
              rw [List.take_succ_cons] at hi'
              rcases List.mem_cons.mp hi' with rfl | hi'
              · exact absurd hlarge hcell
              · exact ⟨i', hi', hlarge⟩
    · rw [if_neg hvalid, List.filter_cons_of_neg hvalid]
      exact ih hidx

theorem wordStores_lt (heven : Even hw.eepromSize) {x : ℕ × ℕ}
    (hx : x ∈ (wordStores hw blkIdx wordEn is efuseIdx).1) : x.1 < hw.eepromSize := by
  obtain ⟨half, hhalf⟩ := heven
  induction is generalizing efuseIdx with
  | nil => cases hx
  | cons i is ih =>
    rw [wordStores] at hx
    dsimp only at hx
    split_ifs at hx with hvalid hcell hroom hend
    · cases hx
    · obtain rfl := List.mem_singleton.mp hx
      dsimp only
      omega
    · simp only [List.mem_cons, List.not_mem_nil, or_false] at hx
      rcases hx with rfl | rfl <;> dsimp only <;> omega
    · rcases List.mem_append.mp hx with hx | hx
      · simp only [List.mem_cons, List.not_mem_nil, or_false] at hx
        rcases hx with rfl | rfl <;> dsimp only <;> omega
      · exact ih hx
    · exact ih hx

theorem le_of_wordStores (h : (wordStores hw blkIdx wordEn is efuseIdx).2 = some idx') :
    efuseIdx ≤ idx' := by
  induction is generalizing efuseIdx with
  | nil => exact (Option.some.inj h).le
  | cons i is ih =>
    rw [wordStores] at h
    dsimp only at h
    split_ifs at h with hvalid
    · have hle := ih h
      omega
    · exact ih h

theorem pass_eq_inl (h : pass hw hdr efuseIdx = .inl idx') :
    ∃ blkIdx wordEn next, hdr efuseIdx = .entry blkIdx wordEn next ∧
      next + 1 < hw.efuseSize ∧ next ≤ idx' := by
  unfold pass at h
  split at h
  · cases h
  · next blkIdx wordEn next hentry =>
    split at h
    · next idx hwords =>
      obtain rfl := Sum.inl.inj h
      unfold entryStores at hwords
      split at hwords
      · cases hwords
      · exact ⟨blkIdx, wordEn, next, hentry, by omega, le_of_wordStores hwords⟩
    · cases h

def Progress (hw : HwCfgInfo) (hdr : ℕ → Hdr) : Prop :=
  ∀ i b w n, hdr i = .entry b w n → i < hw.efuseSize ∧ i < n

theorem progress_eepromHdr (hw : HwCfgInfo) (btSwitch : Bool) (phy : Map) :
    Progress hw (eepromHdr hw btSwitch phy) := by
  intro i b w n h
  unfold eepromHdr at h
  split_ifs at h <;> obtain ⟨-, -, rfl⟩ := Hdr.entry.inj h <;> omega

theorem progress_maskHdr (hw : HwCfgInfo) (phy : Map) : Progress hw (maskHdr hw phy) := by
  intro i b w n h
  unfold maskHdr at h
  split_ifs at h
  obtain ⟨-, -, rfl⟩ := Hdr.entry.inj h
  omega

theorem isSome_walk (hprogress : Progress hw hdr) (hfuel : hw.efuseSize < fuel) :
    (Loop.iterate (pass hw hdr) fuel secCtrlEfuseSize).isSome := by
  refine Loop.isSome_iterate (fun i => hw.efuseSize - i) (fun i i' hpass => ?_) (by omega)
  obtain ⟨b, w, n, hentry, -, hle⟩ := pass_eq_inl hpass
  have hlt := hprogress i b w n hentry
  omega

theorem hdrReads_iff (i : ℕ) :
    (∀ a ∈ hdrReads hw btSwitch phy i, a < hw.efuseSize) ↔ HdrWhole hw btSwitch phy i := by
  unfold hdrReads HdrWhole
  by_cases hend : i ≥ hw.efuseSize
  · rw [if_pos hend]
    exact iff_of_true (fun a ha => (nomatch ha)) fun hlast => by omega
  · rw [if_neg hend]
    by_cases hone : phy i = 0xff ∨ (btSwitch ∧ phy i &&& 0xF ≠ 0xF)
    · rw [if_pos hone]
      refine iff_of_true (fun a ha => ?_) fun _ => hone
      obtain rfl := List.mem_singleton.mp ha
      omega
    · rw [if_neg hone]
      constructor
      · intro hread hlast
        have hlt : i + 1 < hw.efuseSize := hread (i + 1) (by simp)
        omega
      · intro hwhole a ha
        simp only [List.mem_cons, List.not_mem_nil, or_false] at ha
        have hne : i + 1 ≠ hw.efuseSize := fun hlast => hone (hwhole hlast)
        omega

theorem passStores_lt (heven : Even hw.eepromSize) {x : ℕ × ℕ}
    (hx : x ∈ passStores hw hdr efuseIdx) : x.1 < hw.eepromSize := by
  unfold passStores entryStores at hx
  split at hx
  · cases hx
  · split at hx
    · cases hx
    · exact wordStores_lt heven hx

theorem passStores_reads_iff (i : ℕ) :
    (∀ x ∈ passStores hw (eepromHdr hw btSwitch phy) i, x.2 < hw.efuseSize) ↔
      WordsWhole hw btSwitch phy i := by
  unfold passStores WordsWhole
  cases hhdr : eepromHdr hw btSwitch phy i with
  | stop e => exact iff_of_true (fun x hx => (nomatch hx)) fun _ _ _ h => (nomatch h)
  | entry b w n =>
    dsimp only
    unfold entryStores
    by_cases hroom : n ≥ hw.efuseSize - 1
    · rw [if_pos hroom]
      refine iff_of_true (fun x hx => (nomatch hx)) fun b' w' n' h hlt => ?_
      obtain ⟨-, -, rfl⟩ := Hdr.entry.inj h
      omega
    · rw [if_neg hroom, reads_wordStores_iff (by omega)]
      constructor
      · intro hwords b' w' n' h _
        obtain ⟨rfl, rfl, rfl⟩ := Hdr.entry.inj h
        exact hwords
      · intro hwhole
        exact hwhole b w n rfl (by omega)

/-! ## The walks -/

/-- **When a walk stays inside**: every pass that it comes to reads inside. -/
theorem walk_inBounds_iff {log : ℕ → List ℕ} {data : Map} (hprogress : Progress hw hdr)
    (heven : Even hw.eepromSize) :
    InBounds hw (walk hw hdr log data) ↔
      ∀ i, Visited hw hdr i → ∀ a ∈ log i, a < hw.efuseSize := by
  have hrun := isSome_walk hprogress (Nat.lt_succ_self hw.efuseSize)
  constructor
  · intro h i hi a ha
    obtain ⟨e, he⟩ := Option.isSome_iff_exists.mp hrun
    have hread : ∀ a ∈ Loop.trace log (pass hw hdr) (hw.efuseSize + 1) secCtrlEfuseSize,
        a < hw.efuseSize := h.reads _ _ (congrArg (Option.map _) he)
    exact hread a ((Loop.mem_trace_iff hrun).mpr ⟨i, hi, ha⟩)
  · intro h
    refine ⟨⟨hw.efuseSize + 1, ?_⟩, fun fuel r hr a ha => ?_, fun fuel r hr x hx => ?_⟩
    · exact (Option.isSome_map ..).trans hrun
    · obtain ⟨e, he, rfl⟩ := Option.map_eq_some_iff.mp hr
      obtain ⟨i, hi, ha⟩ := (Loop.mem_trace_iff (he ▸ rfl)).mp ha
      exact h i hi a ha
    · obtain ⟨e, he, rfl⟩ := Option.map_eq_some_iff.mp hr
      obtain ⟨y, hy, rfl⟩ := List.mem_map.mp hx
      obtain ⟨i, -, hy⟩ := (Loop.mem_trace_iff (he ▸ rfl)).mp hy
      exact passStores_lt heven hy

theorem eepromReads_iff (i : ℕ) :
    (∀ a ∈ eepromReads hw btSwitch phy i, a < hw.efuseSize) ↔
      HdrWhole hw btSwitch phy i ∧ WordsWhole hw btSwitch phy i := by
  rw [eepromReads, List.forall_mem_append, hdrReads_iff, List.forall_mem_map, passStores_reads_iff]

/-- **Both parsers stay inside** exactly if no entry that they come to runs over the end. -/
theorem parsers_inBounds_iff (hw : HwCfgInfo) (btSwitch : Bool) (phy : Map)
    (heven : Even hw.eepromSize) :
    InBounds hw (eepromParser8822e hw btSwitch phy) ∧ InBounds hw (eepromMaskParser8822e hw phy) ↔
      (∀ i, Visited hw (eepromHdr hw btSwitch phy) i →
        HdrWhole hw btSwitch phy i ∧ WordsWhole hw btSwitch phy i) ∧
      ∀ i, Visited hw (maskHdr hw phy) i → HdrWhole hw false phy i := by
  unfold eepromParser8822e eepromMaskParser8822e
  rw [walk_inBounds_iff (progress_eepromHdr hw btSwitch phy) heven,
    walk_inBounds_iff (progress_maskHdr hw phy) heven]
  simp only [eepromReads_iff, hdrReads_iff]

theorem eepromHdr_blank (i : ℕ) : eepromHdr hw false blank i = .stop i := by
  unfold eepromHdr
  split
  · rfl
  · exact if_pos rfl

/-- A blank map. -/
theorem blank_inBounds :
    InBounds hwCfg8822e (eepromParser8822e hwCfg8822e false blank) ∧
      InBounds hwCfg8822e (eepromMaskParser8822e hwCfg8822e blank) := by
  refine (parsers_inBounds_iff hwCfg8822e false blank ⟨1024, rfl⟩).mpr
    ⟨fun i _ => ?_, fun i _ => ?_⟩
  · refine ⟨fun _ => .inl rfl, fun b w n hentry => ?_⟩
    rw [eepromHdr_blank] at hentry
    cases hentry
  · exact fun _ => .inl rfl

theorem visited_constant {k : ℕ} (hk : k ≤ 151) :
    Visited hwCfg8822e (eepromHdr hwCfg8822e false fun _ => 0x08) (4 + 8 * k) := by
  induction k with
  | zero => exact .refl _
  | succ k ih =>
    have hpass : ∀ k < 151, pass hwCfg8822e (eepromHdr hwCfg8822e false fun _ => 0x08) (4 + 8 * k) =
        .inl (4 + 8 * (k + 1)) := by decide +kernel
    exact (ih (by omega)).tail (hpass k hk)

theorem not_parsers_inBounds :
    ¬∀ (hw : HwCfgInfo) (btSwitch : Bool) (phy : Map), Even hw.eepromSize →
      InBounds hw (eepromParser8822e hw btSwitch phy) ∧
        InBounds hw (eepromMaskParser8822e hw phy) := by
  intro h
  have heven : Even hwCfg8822e.eepromSize := ⟨1024, rfl⟩
  have hread := (walk_inBounds_iff (progress_eepromHdr hwCfg8822e false fun _ => 0x08) heven).mp
    (h hwCfg8822e false (fun _ => 0x08) heven).1 1212 (visited_constant (k := 151) le_rfl)
  obtain ⟨-, hwords⟩ := (eepromReads_iff 1212).mp hread
  obtain ⟨i, hi, hlarge⟩ := hwords 0x80 0x08 1214 (by decide) (by decide) 1 (by decide) rfl
  revert i
  decide

theorem readWords_wordStores (data : Map) (m : Map) :
    is.foldlM (readWord data blkIdx wordEn) (m, efuseIdx) =
      (wordStores hwCfg8822e blkIdx wordEn is efuseIdx).2.map fun idx =>
        (overlay m ((wordStores hwCfg8822e blkIdx wordEn is efuseIdx).1.map
          fun x => (x.1, data x.2)), idx) := by
  induction is generalizing m efuseIdx with
  | nil => rfl
  | cons i is ih =>
    rw [List.foldlM_cons, wordStores, readWord]
    dsimp only
    by_cases hvalid : wordValid wordEn i
    · rw [if_pos hvalid, if_pos hvalid]
      by_cases hcell : 8 * blkIdx.toNat + 2 * i + 1 > eepromSize
      · rw [if_pos hcell, if_pos (show _ > hwCfg8822e.eepromSize from hcell)]
        rfl
      · rw [if_neg hcell, if_neg (show ¬_ > hwCfg8822e.eepromSize from hcell)]
        by_cases hroom : efuseIdx + 1 > efuseSize - 1
        · rw [if_pos hroom, if_pos (show _ > hwCfg8822e.efuseSize - 1 from hroom)]
          rfl
        · rw [if_neg hroom, if_neg (show ¬_ > hwCfg8822e.efuseSize - 1 from hroom)]
          by_cases hend : efuseIdx + 2 > efuseSize
          · rw [if_pos hend, if_pos (show _ > hwCfg8822e.efuseSize from hend)]
            rfl
          · rw [if_neg hend, if_neg (show ¬_ > hwCfg8822e.efuseSize from hend)]
            change is.foldlM (readWord data blkIdx wordEn) _ = _
            rw [ih, List.map_append, overlay_append]
            rfl
    · rw [if_neg hvalid, if_neg hvalid]
      exact ih m

/-- The walk at the sizes of the chip. -/
theorem parseLoop_eq (data : Map) (m : Map) :
    parseLoop hdr data fuel m efuseIdx =
      (Loop.iterate (pass hwCfg8822e hdr) fuel efuseIdx).bind fun efuseEnd =>
        efuseEnd.map fun e =>
          (overlay m ((Loop.trace (passStores hwCfg8822e hdr) (pass hwCfg8822e hdr) fuel
            efuseIdx).map fun x => (x.1, data x.2)), e) := by
  induction fuel generalizing m efuseIdx with
  | zero => rfl
  | succ fuel ih =>
    rw [parseLoop, Loop.trace]
    cases hhdr : hdr efuseIdx with
    | stop e =>
      have hpass : pass hwCfg8822e hdr efuseIdx = .inr (some e) := by rw [pass, hhdr]
      have hstores : passStores hwCfg8822e hdr efuseIdx = [] := by rw [passStores, hhdr]
      rw [Loop.iterate_succ_of_inr hpass, hpass, hstores]
      rfl
    | entry b w next =>
      dsimp only
      by_cases hroom : next ≥ efuseSize - 1
      · have hpass : pass hwCfg8822e hdr efuseIdx = .inr none := by
          rw [pass, hhdr]
          dsimp only
          rw [entryStores, if_pos (show next ≥ hwCfg8822e.efuseSize - 1 from hroom)]
        rw [if_pos hroom, Loop.iterate_succ_of_inr hpass]
        rfl
      · have hentry : entryStores hwCfg8822e b w next =
            wordStores hwCfg8822e b w [0, 1, 2, 3] next :=
          if_neg (show ¬next ≥ hwCfg8822e.efuseSize - 1 from hroom)
        have hstores : passStores hwCfg8822e hdr efuseIdx =
            (wordStores hwCfg8822e b w [0, 1, 2, 3] next).1 := by rw [passStores, hhdr, ← hentry]
        rw [if_neg hroom, readWords_wordStores, hstores]
        cases hwords : (wordStores hwCfg8822e b w [0, 1, 2, 3] next).2 with
        | none =>
          have hpass : pass hwCfg8822e hdr efuseIdx = .inr none := by
            rw [pass, hhdr]
            dsimp only
            rw [hentry, hwords]
          rw [Loop.iterate_succ_of_inr hpass]
          rfl
        | some idx =>
          have hpass : pass hwCfg8822e hdr efuseIdx = .inl idx := by
            rw [pass, hhdr]
            dsimp only
            rw [hentry, hwords]
          rw [Loop.iterate_succ_of_inl hpass, hpass, List.map_append]
          simp only [Option.map_some, Option.bind_some, ih, overlay_append]

/-- **The eeprom parser at the sizes of the chip.** -/
theorem eepromParser_eq (btSwitch : Bool) (phy : Map) :
    eepromParse btSwitch phy =
      (eepromParser8822e hwCfg8822e btSwitch phy (efuseSize + 1)).bind fun r =>
        r.efuseEnd.map fun e => (r.logMap, e) := by
  have hhdr : readHdr btSwitch phy = eepromHdr hwCfg8822e btSwitch phy := rfl
  rw [eepromParse, parseLoop_eq, hhdr]
  unfold eepromParser8822e walk
  rw [Option.bind_map]
  rfl

/-- **The mask parser at the sizes of the chip.** -/
theorem maskParser_eq (phy : Map) :
    maskParse phy =
      (eepromMaskParser8822e hwCfg8822e phy (efuseSize + 1)).bind fun r =>
        r.efuseEnd.map fun e => (r.logMap, e) := by
  have hhdr : readMaskHdr phy = maskHdr hwCfg8822e phy := rfl
  rw [maskParse, parseLoop_eq, hhdr]
  unfold eepromMaskParser8822e walk
  rw [Option.bind_map]
  rfl

end Rtl88x2eu.Efuse
