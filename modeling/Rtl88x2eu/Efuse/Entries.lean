import Rtl88x2eu.Efuse.Writers

/-!
# Entries written behind the others

All three writers append entries whose words are taken from one logical map: the old map with the
new byte or word in it, or the map to program. Where the log ends on a blank byte, the parser then
reads the old entries and the new ones, and the new map counts on the cells of the new entries.

For a whole map the cells are those that the mask selects, less the words that `update_eeprom_mask`
found programmed with the value that they shall have.

## Main definitions

* `newEntries`, `MaskSelects`

## Main results

* `eepromParse_place`: the map after entries were appended to it
* `programEfuse_returns`
* `maskSelects_updatedMaskOf`: what the updated mask selects
-/

namespace Rtl88x2eu.Efuse

open RecordLog Failing

variable {phy newMap oldMap : Map} {efuseEnd i c k n : ℕ} {es : List (List (ℕ × UInt8))}

/-! ## The log after an append -/

def encodeEntries (l : List (UInt8 × UInt8)) (newMap : Map) : List UInt8 :=
  l.flatMap fun p => encodeEntry p.1 p.2 newMap

def assignEntries (l : List (UInt8 × UInt8)) (newMap : Map) : List (List (ℕ × UInt8)) :=
  l.map fun p => (entryCells p.1 (enabledWords p.2)).map fun c => (c, newMap c)

/-- The logical cell is one of the entries' cells. -/
def Covered (l : List (UInt8 × UInt8)) (c : ℕ) : Prop :=
  ∃ p ∈ l, c / 8 = p.1.toNat ∧ c % 8 / 2 ∈ enabledWords p.2

instance decidableCovered (l : List (UInt8 × UInt8)) (c : ℕ) : Decidable (Covered l c) :=
  inferInstanceAs (Decidable (∃ p ∈ l, c / 8 = p.1.toNat ∧ c % 8 / 2 ∈ enabledWords p.2))

theorem mem_entryCells {blk : UInt8} {is : List ℕ} (his : ∀ i ∈ is, i < 4) :
    c ∈ entryCells blk is ↔ c / 8 = blk.toNat ∧ c % 8 / 2 ∈ is := by
  unfold entryCells
  simp only [List.mem_flatMap, List.mem_cons, List.not_mem_nil, or_false]
  constructor
  · rintro ⟨w, hw, hc⟩
    have := his w hw
    have hword : c % 8 / 2 = w := by omega
    exact ⟨by omega, hword ▸ hw⟩
  · rintro ⟨hblk, hw⟩
    exact ⟨_, hw, by omega⟩

theorem lt_of_mem_enabledWords {wordEn : UInt8} (h : i ∈ enabledWords wordEn) : i < 4 :=
  (mem_enabledWords.mp h).1

theorem records_place (l : List (UInt8 × UInt8)) (hl : ∀ p ∈ l, p.2 < 15) (mem : Map)
    (hfit : i + (encodeEntries l newMap).length ≤ efuseSize) :
    Records readEntry (place mem i (encodeEntries l newMap)) i (assignEntries l newMap)
      (i + (encodeEntries l newMap).length) := by
  induction l generalizing mem i with
  | nil => exact .nil i
  | cons p l ih =>
    have hp := hl p List.mem_cons_self
    have hcons : encodeEntries (p :: l) newMap =
        encodeEntry p.1 p.2 newMap ++ encodeEntries l newMap := rfl
    rw [hcons, List.length_append] at hfit ⊢
    have hhead := readEntry_encodeEntry p.1 newMap hp
      (show i + (encodeEntry p.1 p.2 newMap).length ≤ efuseSize by omega) mem
    have htail := ih (fun q hq => hl q (List.mem_cons_of_mem p hq))
      (place mem i (encodeEntry p.1 p.2 newMap))
      (show i + (encodeEntry p.1 p.2 newMap).length + _ ≤ efuseSize by omega)
    rw [place_append, ← Nat.add_assoc]
    refine .cons (local_readEntry.frame hhead fun n _ hn => ?_) htail
    exact place_of_lt hn

theorem overlay_assignEntries {l : List (UInt8 × UInt8)} :
    overlay oldMap (assignEntries l newMap).flatten c =
      if Covered l c then newMap c else oldMap c := by
  rw [overlay_of_values (g := newMap)]
  · refine if_congr ?_ rfl rfl
    simp only [assignEntries, List.mem_map, List.mem_flatten]
    constructor
    · rintro ⟨a, ⟨_, ⟨p, hp, rfl⟩, ha⟩, rfl⟩
      obtain ⟨c, hc, rfl⟩ := List.mem_map.mp ha
      exact ⟨p, hp, (mem_entryCells fun _ => lt_of_mem_enabledWords).mp hc⟩
    · rintro ⟨p, hp, hc⟩
      exact ⟨(c, newMap c), ⟨_, ⟨p, hp, rfl⟩, List.mem_map.mpr
        ⟨c, (mem_entryCells fun _ => lt_of_mem_enabledWords).mpr hc, rfl⟩⟩, rfl⟩
  · simp only [assignEntries, List.mem_flatten, List.mem_map]
    rintro a ⟨_, ⟨p, -, rfl⟩, ha⟩
    obtain ⟨c, -, rfl⟩ := List.mem_map.mp ha
    rfl

/-- **The map after entries were appended** where the log ends on a blank byte. -/
theorem eepromParse_place (hrec : Records readEntry phy secCtrlEfuseSize es efuseEnd)
    (hfree : ∀ n, efuseEnd ≤ n → n < efuseSize → phy n = 0xff)
    (l : List (UInt8 × UInt8)) (hl : ∀ p ∈ l, p.2 < 15)
    (hfit : efuseEnd + (encodeEntries l newMap).length ≤ efuseSize) :
    eepromParse false (place phy efuseEnd (encodeEntries l newMap)) =
      some (overlay (overlay blank es.flatten) (assignEntries l newMap).flatten,
        efuseEnd + (encodeEntries l newMap).length) := by
  have hold : Records readEntry (place phy efuseEnd (encodeEntries l newMap)) secCtrlEfuseSize es
      efuseEnd := hrec.congr local_readEntry fun n _ hn => place_of_lt hn
  refine eepromParse_eq_some_iff.mpr ⟨_, _, hold.append (records_place l hl phy hfit), ?_, ?_⟩
  · rw [List.flatten_append, overlay_append]
  · refine readHdr_eq_stop.mpr (.inl ⟨?_, rfl⟩)
    rcases Nat.lt_or_ge (efuseEnd + (encodeEntries l newMap).length) efuseSize with hlt | hge
    · right
      rw [place_of_le le_rfl]
      exact hfree _ (by omega) hlt
    · exact .inl hge

/-! ## The entries of the programmer -/

/-- The entries that the programmer appends. -/
def newEntries (info : PgEfuseInfo) (updatedMask : Map) : List (UInt8 × UInt8) :=
  ((strides 8 info.efuseMapSize).filter fun i => pgPreWordEn updatedMask i > 0).map fun i =>
    (UInt8.ofNat (i / 8), pgPreWordEn updatedMask i ^^^ 0x0F)

theorem nibbles_lt : ∀ x : UInt8, (x >>> 4).toNat < 16 ∧ (x &&& 0x0F).toNat < 16 := by
  decide +kernel

theorem pgWords_nibble : ∀ n < 16,
    pgWords (UInt8.ofNat n) = enabledWords (UInt8.ofNat n ^^^ 0x0F) ∧
      (UInt8.ofNat n > 0 ↔ UInt8.ofNat n ^^^ 0x0F < 15) ∧
      (UInt8.ofNat n > 0 ↔ pgWords (UInt8.ofNat n) ≠ []) := by
  decide +kernel

theorem pgPreWordEn_lt (updatedMask : Map) (i : ℕ) : (pgPreWordEn updatedMask i).toNat < 16 := by
  unfold pgPreWordEn
  split
  · exact (nibbles_lt _).2
  · exact (nibbles_lt _).1

theorem pgWords_pgPreWordEn (updatedMask : Map) (i : ℕ) :
    pgWords (pgPreWordEn updatedMask i) = enabledWords (pgPreWordEn updatedMask i ^^^ 0x0F) ∧
      (pgPreWordEn updatedMask i > 0 ↔ pgPreWordEn updatedMask i ^^^ 0x0F < 15) ∧
      (pgPreWordEn updatedMask i > 0 ↔ pgWords (pgPreWordEn updatedMask i) ≠ []) := by
  have h := pgWords_nibble _ (pgPreWordEn_lt updatedMask i)
  rwa [UInt8.ofNat_toNat] at h

theorem mem_strides {step size : ℕ} (hstep : 0 < step) :
    i ∈ strides step size ↔ i < size ∧ i % step = 0 := by
  unfold strides
  simp only [List.mem_map, List.mem_range]
  constructor
  · rintro ⟨k, hk, rfl⟩
    rw [Nat.lt_div_iff_mul_lt hstep] at hk
    refine ⟨?_, Nat.mul_mod_right ..⟩
    rw [Nat.mul_comm]
    omega
  · rintro ⟨hlt, hmod⟩
    refine ⟨i / step, ?_, Nat.mul_div_cancel' (Nat.dvd_of_mod_eq_zero hmod)⟩
    rw [Nat.lt_div_iff_mul_lt hstep, Nat.div_mul_cancel (Nat.dvd_of_mod_eq_zero hmod)]
    omega

theorem pgEntryBytes_eq (info : PgEfuseInfo) (updatedMask : Map) (hi : i < 2048)
    (hmod : i % 8 = 0) :
    pgEntryBytes info (pgPreWordEn updatedMask i ^^^ 0x0F) (pgPreWordEn updatedMask i) i =
      encodeEntry (UInt8.ofNat (i / 8)) (pgPreWordEn updatedMask i ^^^ 0x0F) info.efuseMap := by
  have hblk : 8 * (UInt8.ofNat (i / 8)).toNat = i := by
    rw [UInt8.toNat_ofNat', Nat.mod_eq_of_lt (by omega)]
    omega
  unfold pgEntryBytes encodeEntry entryCells
  rw [(pgWords_pgPreWordEn updatedMask i).1, List.map_flatMap, hblk]
  rfl

theorem programBytes_eq (info : PgEfuseInfo) (updatedMask : Map)
    (hsize : info.efuseMapSize ≤ eepromSize) :
    programBytes info updatedMask = encodeEntries (newEntries info updatedMask) info.efuseMap := by
  unfold programBytes encodeEntries newEntries
  rw [List.flatMap_map]
  have hmem : ∀ i ∈ strides 8 info.efuseMapSize, i < 2048 ∧ i % 8 = 0 := fun i hi =>
    ((mem_strides (by omega)).mp hi).imp_left fun h => lt_of_lt_of_le h hsize
  revert hmem
  generalize strides 8 info.efuseMapSize = l
  intro hmem
  induction l with
  | nil => rfl
  | cons i l ih =>
    obtain ⟨hlt, hmod⟩ := hmem i List.mem_cons_self
    rw [List.flatMap_cons, ih fun k hk => hmem k (List.mem_cons_of_mem i hk)]
    unfold blockBytes
    by_cases hpos : pgPreWordEn updatedMask i > 0
    · rw [List.filter_cons_of_pos (by simpa using hpos), List.flatMap_cons, if_pos hpos,
        pgEntryBytes_eq info updatedMask hlt hmod]
    · rw [List.filter_cons_of_neg (by simpa using hpos), if_neg hpos, List.nil_append]

theorem newEntries_lt (info : PgEfuseInfo) (updatedMask : Map) :
    ∀ p ∈ newEntries info updatedMask, p.2 < 15 := by
  unfold newEntries
  simp only [List.mem_map, List.mem_filter]
  rintro p ⟨i, ⟨-, hpos⟩, rfl⟩
  exact (pgWords_pgPreWordEn updatedMask i).2.1.mp (by simpa using hpos)

/-- The bit of the mask for the logical cell `c` is set. -/
def MaskSelects (mask : Map) (c : ℕ) : Prop := c % 8 / 2 ∈ pgWords (pgPreWordEn mask c)

instance decidableMaskSelects (mask : Map) (c : ℕ) : Decidable (MaskSelects mask c) :=
  inferInstanceAs (Decidable (_ ∈ _))

theorem pgPreWordEn_block (mask : Map) (c : ℕ) :
    pgPreWordEn mask (8 * (c / 8)) = pgPreWordEn mask c := by
  unfold pgPreWordEn
  rw [show 8 * (c / 8) / 8 = c / 8 by omega, show 8 * (c / 8) / 16 = c / 16 by omega]

theorem covered_newEntries {info : PgEfuseInfo} (updatedMask : Map)
    (hmod : info.efuseMapSize % 16 = 0) (hsize : info.efuseMapSize ≤ eepromSize) :
    Covered (newEntries info updatedMask) c ↔
      c < info.efuseMapSize ∧ MaskSelects updatedMask c := by
  have hsize : info.efuseMapSize ≤ 2048 := hsize
  unfold Covered newEntries
  simp only [List.mem_map, List.mem_filter, mem_strides (show 0 < 8 by omega)]
  constructor
  · rintro ⟨p, ⟨i, ⟨⟨hlt, hi⟩, -⟩, rfl⟩, hblk, hword⟩
    rw [UInt8.toNat_ofNat', Nat.mod_eq_of_lt (by omega)] at hblk
    obtain rfl : i = 8 * (c / 8) := by omega
    rw [← (pgWords_pgPreWordEn updatedMask _).1, pgPreWordEn_block] at hword
    exact ⟨by omega, hword⟩
  · rintro ⟨hlt, hsel⟩
    have hpos : pgPreWordEn updatedMask (8 * (c / 8)) > 0 := by
      rw [pgPreWordEn_block]
      exact (pgWords_pgPreWordEn updatedMask c).2.2.mpr (List.ne_nil_of_mem hsel)
    refine ⟨_, ⟨8 * (c / 8), ⟨⟨by omega, by omega⟩, by simpa using hpos⟩, rfl⟩, ?_, ?_⟩
    · rw [UInt8.toNat_ofNat', Nat.mod_eq_of_lt (by omega)]
      omega
    · rw [← (pgWords_pgPreWordEn updatedMask _).1, pgPreWordEn_block]
      exact hsel

/-- The programmer appends the entries of `newEntries`. -/
theorem programEfuse_returns {s s' : Adapter} {info : PgEfuseInfo} {updatedMask : Map}
    (hs : Storing s) (h : Returns (programEfuse info updatedMask) s () s') :
    s'.cells = place s.cells s.efuseEnd (programBytes info updatedMask) ∧
      s'.efuseMap = s.efuseMap := by
  unfold programEfuse at h
  unfold programBytes
  revert h
  generalize strides 8 info.efuseMapSize = l
  intro h
  suffices hall : ∃ a v e b, s' = { s with
      cells := place s.cells s.efuseEnd (l.flatMap (blockBytes info updatedMask))
      answers := a, efuseMapValid := v, burned := b, efuseEnd := e } ∧
      e = s.efuseEnd + (l.flatMap (blockBytes info updatedMask)).length by
    obtain ⟨a, v, e, b, rfl, -⟩ := hall
    exact ⟨rfl, rfl⟩
  induction l generalizing s with
  | nil =>
    obtain ⟨-, rfl⟩ := returns_pure.mp h
    exact ⟨s.answers, s.efuseMapValid, s.efuseEnd, s.burned, by simp, by simp⟩
  | cons i l ih =>
    rw [List.forM_cons] at h
    obtain ⟨_, t, hfirst, hrest⟩ := returns_bind.mp h
    dsimp only at hfirst
    rw [List.flatMap_cons]
    rcases returns_onlyIf.mp hfirst with ⟨hpos, hpg⟩ | ⟨hpos, rfl⟩
    · simp only [procPgEfuse, returns_bind, returns_look, returns_modify] at hpg
      obtain ⟨_, _, ⟨rfl, rfl⟩, _, t', hwrite, rfl⟩ := hpg
      obtain ⟨a, v, rfl, -⟩ := writeBytes_returns hs hwrite
      obtain ⟨a', v', e', b', rfl, he⟩ := ih (by exact hs) hrest
      have hblock : blockBytes info updatedMask i =
          pgEntryBytes info (pgPreWordEn updatedMask i ^^^ 0x0F) (pgPreWordEn updatedMask i) i :=
        if_pos hpos
      refine ⟨a', v', e', b', ?_, ?_⟩
      · rw [place_append, hblock]
      · rw [he, hblock, List.length_append, Nat.add_assoc]
    · obtain ⟨a', v', e', b', rfl, he⟩ := ih hs hrest
      have hblock : blockBytes info updatedMask i = [] := if_neg hpos
      refine ⟨a', v', e', b', ?_, ?_⟩
      · rw [hblock, List.nil_append]
      · rw [he, hblock, List.nil_append]

/-! ## The updated mask -/

def maskBit (c : ℕ) : ℕ := if c / 8 % 2 = 0 then 4 + c % 8 / 2 else c % 8 / 2

theorem mem_pgWords_nibble : ∀ x : UInt8, ∀ w < 4,
    (w ∈ pgWords (x >>> 4) ↔ x.toBitVec.getLsbD (4 + w) = true) ∧
      (w ∈ pgWords (x &&& 0x0F) ↔ x.toBitVec.getLsbD w = true) := by
  decide +kernel

theorem maskSelects_iff {mask : Map} :
    MaskSelects mask c ↔ (mask (c / 16)).toBitVec.getLsbD (maskBit c) = true := by
  obtain ⟨hhigh, hlow⟩ := mem_pgWords_nibble (mask (c / 16)) (c % 8 / 2) (by omega)
  unfold MaskSelects maskBit pgPreWordEn
  rw [Nat.and_one_is_mod]
  split <;> split
  · omega
  · exact hlow
  · exact hhigh
  · omega

theorem clrBit_getLsbD : ∀ j < 16, j % 2 = 0 → ∀ c < 16,
    ((clrBit j).toBitVec.getLsbD (maskBit c) = true ↔ c / 2 * 2 = j) := by
  decide +kernel

/-- The loop over the words of one mask byte. -/
def clearBits (cond : ℕ → Prop) [DecidablePred cond] (js : List ℕ) (b : UInt8) : UInt8 :=
  js.foldl (fun b j => if cond j then b &&& ~~~ clrBit j else b) b

theorem clearBits_getLsbD (cond : ℕ → Prop) [DecidablePred cond] {js : List ℕ} {b : UInt8}
    (hn : n < 8) :
    (clearBits cond js b).toBitVec.getLsbD n = true ↔
      b.toBitVec.getLsbD n = true ∧
        ∀ j ∈ js, cond j → ¬ (clrBit j).toBitVec.getLsbD n = true := by
  induction js generalizing b with
  | nil => simp [clearBits]
  | cons j js ih =>
    have hcons : clearBits cond (j :: js) b =
        clearBits cond js (if cond j then b &&& ~~~ clrBit j else b) := rfl
    rw [hcons, ih]
    by_cases hj : cond j
    · simp [hj, hn, and_assoc]
    · simp [hj]

theorem foldl_update_eq_clearBits (cond : ℕ → Prop) [DecidablePred cond] (js : List ℕ)
    (mask : Map) (k : ℕ) :
    js.foldl (fun mask j =>
      if cond j then Function.update mask k (mask k &&& ~~~ clrBit j) else mask) mask =
      Function.update mask k (clearBits cond js (mask k)) := by
  induction js generalizing mask with
  | nil => exact (Function.update_eq_self k mask).symm
  | cons j js ih =>
    rw [List.foldl_cons, ih]
    by_cases hj : cond j <;> simp [hj, clearBits]

theorem updatedMaskOf_apply (info : PgEfuseInfo) (map maskMap : Map)
    (hmod : info.efuseMapSize % 16 = 0) (hk : k < info.efuseMapSize / 16)
    (hmask : info.efuseMaskSize = info.efuseMapSize / 16) :
    updatedMaskOf info map maskMap k =
      clearBits (fun j => alreadyProgrammed info map maskMap (16 * k + j)) (strides 2 16)
        (info.efuseMask k) := by
  obtain ⟨m, hm⟩ : ∃ m, info.efuseMapSize = 16 * m := ⟨info.efuseMapSize / 16, by omega⟩
  have hcount : (16 * m + 16 - 1) / 16 = m := by omega
  unfold updatedMaskOf strides
  rw [hm, hcount, hmask, hm, Nat.mul_div_cancel_left m (by omega)]
  rw [hm, Nat.mul_div_cancel_left m (by omega)] at hk
  have hstrides : (List.range ((16 + 2 - 1) / 2)).map (2 * ·) = strides 2 16 := rfl
  rw [hstrides, List.foldl_map]
  -- the first `l` bytes are done, the others are as they were copied
  have hcleared (l : ℕ) : ∀ k, (List.range l).foldl (fun mask i => (strides 2 16).foldl
      (fun mask j =>
        if alreadyProgrammed info map maskMap (16 * i + j) then
          Function.update mask (16 * i / 16) (mask (16 * i / 16) &&& ~~~ clrBit j)
        else mask) mask) (fun k => if k < m then info.efuseMask k else 0x00) k =
      if k < l then clearBits (fun j => alreadyProgrammed info map maskMap (16 * k + j))
        (strides 2 16) (if k < m then info.efuseMask k else 0x00)
      else if k < m then info.efuseMask k else 0x00 := by
    induction l with
    | zero => exact fun k => rfl
    | succ l ih =>
      intro k
      rw [List.range_succ, List.foldl_append, List.foldl_cons, List.foldl_nil,
        foldl_update_eq_clearBits, Nat.mul_div_cancel_left l (by omega)]
      rcases Nat.lt_trichotomy k l with hlt | rfl | hgt
      · rw [Function.update_of_ne (by omega), ih, if_pos hlt, if_pos (show k < l + 1 by omega)]
      · rw [Function.update_self, ih, if_neg (lt_irrefl k), if_pos (Nat.lt_succ_self k)]
      · rw [Function.update_of_ne (by omega), ih, if_neg (show ¬ k < l by omega),
          if_neg (show ¬ k < l + 1 by omega)]
  rw [hcleared, if_pos hk, if_pos hk]

/-- **What the updated mask selects**: what the mask selects and is not programmed already. -/
theorem maskSelects_updatedMaskOf (info : PgEfuseInfo) (map maskMap : Map)
    (hmod : info.efuseMapSize % 16 = 0) (hc : c < info.efuseMapSize)
    (hmask : info.efuseMaskSize = info.efuseMapSize / 16) :
    MaskSelects (updatedMaskOf info map maskMap) c ↔
      MaskSelects info.efuseMask c ∧ ¬ alreadyProgrammed info map maskMap (c / 2 * 2) := by
  have hbit : maskBit c = maskBit (c % 16) := by
    unfold maskBit
    rw [show c % 16 / 8 % 2 = c / 8 % 2 by omega, show c % 16 % 8 = c % 8 by omega]
  have hlt : maskBit c < 8 := by
    unfold maskBit
    split <;> omega
  rw [maskSelects_iff, maskSelects_iff, updatedMaskOf_apply info map maskMap hmod (by omega) hmask,
    clearBits_getLsbD _ hlt]
  refine and_congr_right fun _ => ?_
  constructor
  · intro hall hprog
    refine hall (c % 16 / 2 * 2) ((mem_strides (by omega)).mpr ⟨by omega, by omega⟩) ?_ ?_
    · rwa [show 16 * (c / 16) + c % 16 / 2 * 2 = c / 2 * 2 by omega]
    · rw [hbit]
      exact (clrBit_getLsbD _ (by omega) (by omega) _ (by omega)).mpr rfl
  · intro hprog j hj hcond hset
    obtain ⟨hj16, hj2⟩ := (mem_strides (by omega)).mp hj
    rw [hbit] at hset
    have hword := (clrBit_getLsbD j hj16 hj2 _ (by omega)).mp hset
    rw [show 16 * (c / 16) + j = c / 2 * 2 by omega] at hcond
    exact hprog hcond

end Rtl88x2eu.Efuse
