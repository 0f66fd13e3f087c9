import Rtl88x2eu.Lib.RecordLog
import Mathlib.Data.FinEnum
import Mathlib.Tactic.Linarith

/-!
# The physical map of the efuse and its parsers

The physical map is a log of entries. An entry has two header bytes, with a block of the logical
map and a mask of the words of that block that follow, and two bytes for each of these words. A
byte 0xff where a header should begin ends the log. `eeprom_parser_8822e` overlays the entries, in
order, on a blank logical map; `eeprom_mask_parser_8822e` marks the words that some entry holds.

Both parsers walk in the same way, so the walk is one definition with the reader of the headers and
the bytes to store as parameters. They differ where the first header byte is not followed by a
second one: the eeprom parser has already stepped over it.

A map is a function of the address, also past the end of the buffer, where the parser may look at
one byte.

## Main definitions

* `readHdr`, `readMaskHdr`, `readWord`, `parseLoop`: the walk
* `eepromParse`, `maskParse`: what the parsers return, `none` being
  `HALMAC_RET_EEPROM_PARSING_FAIL`
* `readEntry`, `encodeEntry`

## Main results

* `eepromParse_eq_some_iff`: the map is parsed exactly if complete entries lead to a stop
* `maskParse_of_records`
* `readEntry_encodeEntry`: an entry that was written is read
-/

namespace Rtl88x2eu.Efuse

open RecordLog

abbrev Map := ℕ → UInt8

/-- `SEC_CTRL_EFUSE_SIZE_8822E`: where the entries begin. -/
def secCtrlEfuseSize : ℕ := 4

def efuseSize : ℕ := 1216

def eepromSize : ℕ := 2048

/-- A map after `PLTFM_MEMSET(map, 0xFF, size)`. -/
def blank : Map := fun _ => 0xff

/-! ## The walk over the entries -/

/-- What is found where an entry may begin. -/
inductive Hdr where
  | stop (efuseIdx : ℕ)
  | entry (blkIdx wordEn : UInt8) (efuseIdx : ℕ)
  deriving DecidableEq

/-- The block of a two-byte header. -/
def blkIdxOf (hdr hdr2 : UInt8) : UInt8 := ((hdr2 &&& 0xF0) >>> 4) ||| ((hdr &&& 0x0F) <<< 4)

/-- The header, as `eeprom_parser_8822e` reads it. -/
def readHdr (btSwitch : Bool) (phy : Map) (efuseIdx : ℕ) : Hdr :=
  if efuseIdx ≥ efuseSize then .stop efuseIdx
  else
    let hdr := phy efuseIdx
    if hdr = 0xff then .stop efuseIdx
    else
      -- from here on the first byte is behind the parser, whatever follows
      let hdr2 := phy (efuseIdx + 1)
      if btSwitch then
        if hdr &&& 0xF ≠ 0xF then .entry ((hdr &&& 0xF0) >>> 4) (hdr &&& 0x0F) (efuseIdx + 1)
        else if hdr2 = 0xff then .stop (efuseIdx + 1)
        else .entry ((((hdr2 &&& 0xF0) >>> 4) <<< 3) + (((hdr &&& 0xF0) >>> 4) >>> 1))
          (hdr2 &&& 0x0F) (efuseIdx + 2)
      else if hdr2 = 0xff then .stop (efuseIdx + 1)
      else .entry (blkIdxOf hdr hdr2) (hdr2 &&& 0x0F) (efuseIdx + 2)

/-- The header, as `eeprom_mask_parser_8822e` reads it. -/
def readMaskHdr (phy : Map) (efuseIdx : ℕ) : Hdr :=
  if efuseIdx ≥ efuseSize then .stop efuseIdx
  else
    let hdr := phy efuseIdx
    if hdr = 0xff then .stop efuseIdx
    else
      let hdr2 := phy (efuseIdx + 1)
      if hdr2 = 0xff then .stop efuseIdx
      else .entry (blkIdxOf hdr hdr2) (hdr2 &&& 0x0F) (efuseIdx + 2)

/-- `valid` of a word of the entry: its bit is clear. -/
def wordValid (wordEn : UInt8) (i : ℕ) : Bool := (~~~(wordEn >>> UInt8.ofNat i)) &&& 1 = 1

def readWord (data : Map) (blkIdx wordEn : UInt8) (st : Map × ℕ) (i : ℕ) : Option (Map × ℕ) :=
  if wordValid wordEn i then
    let eepromIdx := 8 * blkIdx.toNat + 2 * i
    if eepromIdx + 1 > eepromSize then none
    else if st.2 + 1 > efuseSize - 1 then none
    else if st.2 + 2 > efuseSize then none
    else some (Function.update (Function.update st.1 eepromIdx (data st.2)) (eepromIdx + 1)
      (data (st.2 + 1)), st.2 + 2)
  else some st

/-- The `do` loop of the parsers. Every entry takes an address, so the fuel bounds nothing. -/
def parseLoop (hdr : ℕ → Hdr) (data : Map) : ℕ → Map → ℕ → Option (Map × ℕ)
  | 0, _, _ => none
  | fuel + 1, logMap, efuseIdx =>
    match hdr efuseIdx with
    | .stop efuseEnd => some (logMap, efuseEnd)
    | .entry blkIdx wordEn next =>
      if next ≥ efuseSize - 1 then none
      else
        ([0, 1, 2, 3].foldlM (readWord data blkIdx wordEn) (logMap, next)).bind fun st =>
          parseLoop hdr data fuel st.1 st.2

/-- `eeprom_parser_8822e`: the logical map and the end of the entries. -/
def eepromParse (btSwitch : Bool) (phyMap : Map) : Option (Map × ℕ) :=
  parseLoop (readHdr btSwitch phyMap) phyMap (efuseSize + 1) blank secCtrlEfuseSize

/-- `eeprom_mask_parser_8822e`: 0x00 at the words that an entry holds, and the end of the
entries. -/
def maskParse (phyMap : Map) : Option (Map × ℕ) :=
  parseLoop (readMaskHdr phyMap) (fun _ => 0x00) (efuseSize + 1) blank secCtrlEfuseSize

def enabledWords (wordEn : UInt8) : List ℕ := [0, 1, 2, 3].filter (wordValid wordEn)

/-- The assignments that the words of an entry make, its data beginning at `efuseIdx`. -/
def assignWords (data : Map) (blkIdx : UInt8) : List ℕ → ℕ → List (ℕ × UInt8)
  | [], _ => []
  | i :: is, efuseIdx =>
    (8 * blkIdx.toNat + 2 * i, data efuseIdx) ::
      (8 * blkIdx.toNat + 2 * i + 1, data (efuseIdx + 1)) ::
        assignWords data blkIdx is (efuseIdx + 2)

variable {phy phy' data : Map} {blkIdx wordEn : UInt8} {efuseIdx efuseEnd i j : ℕ} {is : List ℕ}

theorem readWords_eq (data : Map) (blkIdx wordEn : UInt8) (his : ∀ i ∈ is, i < 4)
    (hidx : efuseIdx ≤ efuseSize) (m : Map) :
    is.foldlM (readWord data blkIdx wordEn) (m, efuseIdx) =
      if efuseIdx + 2 * (is.filter (wordValid wordEn)).length ≤ efuseSize then
        some (overlay m (assignWords data blkIdx (is.filter (wordValid wordEn)) efuseIdx),
          efuseIdx + 2 * (is.filter (wordValid wordEn)).length)
      else none := by
  induction is generalizing m efuseIdx with
  | nil => simp [assignWords, hidx]
  | cons i is ih =>
    have hi := his i List.mem_cons_self
    have hblk := blkIdx.toNat_lt
    have his' : ∀ i ∈ is, i < 4 := fun i h => his i (List.mem_cons_of_mem _ h)
    rw [List.foldlM_cons]
    by_cases hv : wordValid wordEn i
    · rw [List.filter_cons_of_pos hv, List.length_cons]
      by_cases hfit : efuseIdx + 2 ≤ efuseSize
      · have hword : readWord data blkIdx wordEn (m, efuseIdx) i =
            some (Function.update (Function.update m (8 * blkIdx.toNat + 2 * i) (data efuseIdx))
              (8 * blkIdx.toNat + 2 * i + 1) (data (efuseIdx + 1)), efuseIdx + 2) := by
          unfold readWord
          have h₁ : ¬ 8 * blkIdx.toNat + 2 * i + 1 > eepromSize := by unfold eepromSize; omega
          have h₂ : ¬ efuseIdx + 1 > efuseSize - 1 := by omega
          have h₃ : ¬ efuseIdx + 2 > efuseSize := by omega
          rw [if_pos hv]
          dsimp only
          rw [if_neg h₁, if_neg h₂, if_neg h₃]
        rw [hword]
        show is.foldlM (readWord data blkIdx wordEn) _ = _
        rw [ih his' hfit]
        have hlen : efuseIdx + 2 + 2 * (is.filter (wordValid wordEn)).length =
            efuseIdx + 2 * ((is.filter (wordValid wordEn)).length + 1) := by omega
        rw [hlen]
        rfl
      · have hword : readWord data blkIdx wordEn (m, efuseIdx) i = none := by
          unfold readWord
          rw [if_pos hv]
          dsimp only
          split
          · rfl
          · rw [if_pos (by omega)]
        rw [hword, if_neg (by omega)]
        rfl
    · rw [List.filter_cons_of_neg hv]
      have hword : readWord data blkIdx wordEn (m, efuseIdx) i = some (m, efuseIdx) := by
        unfold readWord
        rw [if_neg hv]
      rw [hword]
      exact ih his' hidx m

/-! ## Entries as records -/

theorem readHdr_eq_entry {next : ℕ} :
    readHdr false phy i = .entry blkIdx wordEn next ↔
      i < efuseSize ∧ phy i ≠ 0xff ∧ phy (i + 1) ≠ 0xff ∧ blkIdxOf (phy i) (phy (i + 1)) = blkIdx ∧
        phy (i + 1) &&& 0x0F = wordEn ∧ i + 2 = next := by
  unfold readHdr
  dsimp only
  split_ifs <;> simp_all

theorem readHdr_next {next : ℕ} (h : readHdr false phy i = .entry blkIdx wordEn next) :
    i + 2 = next := by
  rw [readHdr_eq_entry] at h
  exact h.2.2.2.2.2

/-- The end of the entries, for `eeprom_parser_8822e`. -/
theorem readHdr_eq_stop :
    readHdr false phy i = .stop efuseEnd ↔
      (efuseSize ≤ i ∨ phy i = 0xff) ∧ efuseEnd = i ∨
      (i < efuseSize ∧ phy i ≠ 0xff ∧ phy (i + 1) = 0xff) ∧ efuseEnd = i + 1 := by
  unfold readHdr
  dsimp only
  split_ifs <;> simp_all [eq_comm]

theorem readMaskHdr_eq_entry {next : ℕ} :
    readMaskHdr phy i = .entry blkIdx wordEn next ↔
      readHdr false phy i = .entry blkIdx wordEn next := by
  unfold readMaskHdr readHdr
  dsimp only
  split_ifs <;> simp_all

/-- The end of the entries, for `eeprom_mask_parser_8822e`. -/
theorem readMaskHdr_eq_stop :
    readMaskHdr phy i = .stop efuseEnd ↔
      (efuseSize ≤ i ∨ phy i = 0xff ∨ phy (i + 1) = 0xff) ∧ efuseEnd = i := by
  unfold readMaskHdr
  dsimp only
  split_ifs <;> simp_all [eq_comm]

/-- One complete entry, as a record. -/
def readEntry : Reader UInt8 (List (ℕ × UInt8)) := fun phy efuseIdx =>
  match readHdr false phy efuseIdx with
  | .stop _ => none
  | .entry blkIdx wordEn next =>
    if next ≥ efuseSize - 1 ∨ efuseSize < next + 2 * (enabledWords wordEn).length then none
    else some (assignWords phy blkIdx (enabledWords wordEn) next,
      next + 2 * (enabledWords wordEn).length)

theorem readEntry_eq_some {e : List (ℕ × UInt8)} {k : ℕ} :
    readEntry phy i = some (e, k) ↔
      ∃ blkIdx wordEn, readHdr false phy i = .entry blkIdx wordEn (i + 2) ∧ i + 2 < efuseSize - 1 ∧
        k = i + 2 + 2 * (enabledWords wordEn).length ∧ k ≤ efuseSize ∧
        e = assignWords phy blkIdx (enabledWords wordEn) (i + 2) := by
  unfold readEntry
  rcases h : readHdr false phy i with efuseEnd | ⟨blkIdx, wordEn, next⟩
  · simp
  · obtain rfl := readHdr_next h
    constructor
    · intro hsome
      dsimp only at hsome
      split_ifs at hsome with hbound
      obtain ⟨rfl, rfl⟩ := Prod.mk.inj (Option.some.inj hsome)
      rw [not_or] at hbound
      exact ⟨blkIdx, wordEn, rfl, by omega, rfl, by omega, rfl⟩
    · rintro ⟨b, w, heq, hlt, rfl, hle, rfl⟩
      obtain ⟨rfl, rfl, -⟩ := Hdr.entry.inj heq
      dsimp only
      rw [if_neg (by omega)]

theorem assignWords_congr (h : ∀ n, i ≤ n → n < i + 2 * is.length → phy' n = phy n) :
    assignWords phy' blkIdx is i = assignWords phy blkIdx is i := by
  induction is generalizing i with
  | nil => rfl
  | cons w is ih =>
    rw [List.length_cons] at h
    simp only [assignWords]
    rw [h i le_rfl (by omega), h (i + 1) (by omega) (by omega),
      ih fun n hn hlt => h n (by omega) (by omega)]

/-- Entries are found again wherever their own bytes are. -/
theorem local_readEntry : Local readEntry where
  progress h := by
    rw [readEntry_eq_some] at h
    obtain ⟨-, -, -, -, rfl, -⟩ := h
    omega
  frame {mem mem' i e k} h hmem := by
    rw [readEntry_eq_some] at h ⊢
    obtain ⟨blkIdx, wordEn, hhdr, hlt, rfl, hle, rfl⟩ := h
    refine ⟨blkIdx, wordEn, ?_, hlt, rfl, hle, ?_⟩
    · rw [readHdr_eq_entry] at hhdr ⊢
      rwa [hmem i le_rfl (by omega), hmem (i + 1) (by omega) (by omega)]
    · exact (assignWords_congr fun n hn hlt => hmem n (by omega) hlt).symm

/-! ## Parsing records -/

variable {es : List (List (ℕ × UInt8))} {hdr : ℕ → Hdr} {fuel : ℕ} {m m' : Map}

theorem mem_enabledWords : i ∈ enabledWords wordEn ↔ i < 4 ∧ wordValid wordEn i := by
  unfold enabledWords
  rw [List.mem_filter]
  refine and_congr_left fun _ => ?_
  simp only [List.mem_cons, List.not_mem_nil, or_false]
  omega

/-- The bytes that are stored instead of the data: the mask parser stores zeros. -/
theorem assignWords_comp (value : UInt8 → UInt8) :
    assignWords (fun n => value (phy n)) blkIdx is i =
      (assignWords phy blkIdx is i).map (Prod.map id value) := by
  induction is generalizing i with
  | nil => rfl
  | cons w is ih => simp [assignWords, ih]

/-- One round of the walk. -/
theorem parseLoop_entry {next : ℕ} (h : hdr i = .entry blkIdx wordEn next)
    (hnext : next < efuseSize - 1) :
    parseLoop hdr data (fuel + 1) m i =
      if next + 2 * (enabledWords wordEn).length ≤ efuseSize then
        parseLoop hdr data fuel (overlay m (assignWords data blkIdx (enabledWords wordEn) next))
          (next + 2 * (enabledWords wordEn).length)
      else none := by
  have hwords := readWords_eq data blkIdx wordEn
    (show ∀ i ∈ [0, 1, 2, 3], i < 4 by simp) (show next ≤ efuseSize by omega) m
  rw [parseLoop, h]
  dsimp only
  rw [if_neg (by omega), hwords]
  unfold enabledWords
  split_ifs <;> rfl

theorem parseLoop_of_records (value : UInt8 → UInt8)
    (hhdr : ∀ {i b w n}, readHdr false phy i = .entry b w n → hdr i = .entry b w n)
    (hrec : Records readEntry phy i es j) (hstop : hdr j = .stop efuseEnd)
    (hfuel : es.length < fuel) :
    parseLoop hdr (fun n => value (phy n)) fuel m i =
      some (overlay m (es.flatten.map (Prod.map id value)), efuseEnd) := by
  induction hrec generalizing fuel m with
  | nil i =>
    obtain ⟨fuel, rfl⟩ := Nat.exists_eq_add_of_lt hfuel
    simp [parseLoop, hstop]
  | cons head tail ih =>
    rw [readEntry_eq_some] at head
    obtain ⟨blkIdx, wordEn, hentry, hlt, rfl, hle, rfl⟩ := head
    obtain ⟨fuel, rfl⟩ : ∃ n, fuel = n + 1 := ⟨fuel - 1, by simp at hfuel; omega⟩
    rw [List.length_cons] at hfuel
    rw [parseLoop_entry (hhdr hentry) hlt, if_pos hle, ih hstop (by omega), assignWords_comp,
      List.flatten_cons, List.map_append, overlay_append]

/-- What is parsed is made of complete entries. -/
theorem records_of_parseLoop
    (h : parseLoop (readHdr false phy) phy fuel m i = some (m', efuseEnd)) :
    ∃ es j, Records readEntry phy i es j ∧ m' = overlay m es.flatten ∧
      readHdr false phy j = .stop efuseEnd := by
  induction fuel generalizing m i with
  | zero => simp [parseLoop] at h
  | succ fuel ih =>
    rcases hhdr : readHdr false phy i with e | ⟨blkIdx, wordEn, next⟩
    · rw [parseLoop, hhdr] at h
      obtain ⟨rfl, rfl⟩ := Prod.mk.inj (Option.some.inj h)
      exact ⟨[], i, .nil i, rfl, hhdr⟩
    · obtain rfl := readHdr_next hhdr
      by_cases hlt : i + 2 < efuseSize - 1
      · rw [parseLoop_entry hhdr hlt] at h
        split_ifs at h with hle
        obtain ⟨es, j, hrec, rfl, hstop⟩ := ih h
        have hentry : readEntry phy i =
            some (assignWords phy blkIdx (enabledWords wordEn) (i + 2),
              i + 2 + 2 * (enabledWords wordEn).length) := by
          rw [readEntry_eq_some]
          exact ⟨blkIdx, wordEn, hhdr, hlt, rfl, hle, rfl⟩
        refine ⟨_, j, .cons hentry hrec, ?_, hstop⟩
        rw [List.flatten_cons, overlay_append]
      · rw [parseLoop, hhdr] at h
        dsimp only at h
        rw [if_pos (by omega)] at h
        cases h

theorem records_length_lt (hrec : Records readEntry phy secCtrlEfuseSize es j)
    (hj : j ≤ efuseSize) : es.length < efuseSize + 1 := by
  have := hrec.length_le local_readEntry
  omega

theorem records_end_le (hrec : Records readEntry phy i es j) (hi : i ≤ efuseSize) :
    j ≤ efuseSize := by
  induction hrec with
  | nil => exact hi
  | cons head _ ih =>
    rw [readEntry_eq_some] at head
    obtain ⟨-, -, -, -, -, hle, -⟩ := head
    exact ih hle

/-- **What the parser accepts**: complete entries that lead to a stop. -/
theorem eepromParse_eq_some_iff :
    eepromParse false phy = some (m, efuseEnd) ↔
      ∃ es j, Records readEntry phy secCtrlEfuseSize es j ∧ m = overlay blank es.flatten ∧
        readHdr false phy j = .stop efuseEnd := by
  constructor
  · exact records_of_parseLoop
  · rintro ⟨es, j, hrec, rfl, hstop⟩
    have hlen := records_length_lt hrec (records_end_le hrec (by decide))
    have := parseLoop_of_records (m := blank) id (fun h => h) hrec hstop hlen
    simpa [eepromParse] using this

/-- The mask of the same entries. -/
theorem maskParse_of_records (hrec : Records readEntry phy secCtrlEfuseSize es j)
    (hstop : readMaskHdr phy j = .stop efuseEnd) :
    maskParse phy =
      some (overlay blank (es.flatten.map (Prod.map id fun _ => 0x00)), efuseEnd) :=
  parseLoop_of_records (fun _ => 0x00) (fun h => by rwa [readMaskHdr_eq_entry]) hrec hstop
    (records_length_lt hrec (records_end_le hrec (by decide)))

/-! ## Writing an entry -/

/-- The first header byte of the writers. -/
def entryHdr (blk : UInt8) : UInt8 := ((blk &&& 0xF0) >>> 4) ||| 0x30

/-- The second header byte of the writers. -/
def entryHdr2 (blk wordEn : UInt8) : UInt8 := ((blk &&& 0x0F) <<< 4) + wordEn

def entryCells (blk : UInt8) (is : List ℕ) : List ℕ :=
  is.flatMap fun i => [8 * blk.toNat + 2 * i, 8 * blk.toNat + 2 * i + 1]

/-- The bytes of an entry. -/
def encodeEntry (blk wordEn : UInt8) (logMap : Map) : List UInt8 :=
  entryHdr blk :: entryHdr2 blk wordEn :: (entryCells blk (enabledWords wordEn)).map logMap

variable {logMap : Map} {blk : UInt8}

theorem entryCells_length : (entryCells blk is).length = 2 * is.length := by
  induction is with
  | nil => rfl
  | cons w is ih =>
    unfold entryCells at ih ⊢
    rw [List.flatMap_cons, List.length_append, ih]
    simp
    omega

theorem assignWords_cells : (assignWords phy blk is i).map Prod.fst = entryCells blk is := by
  induction is generalizing i with
  | nil => rfl
  | cons w is ih =>
    have hcells : entryCells blk (w :: is) =
        (8 * blk.toNat + 2 * w) :: (8 * blk.toNat + 2 * w + 1) :: entryCells blk is := rfl
    rw [hcells, ← ih (i := i + 2)]
    rfl

theorem encodeEntry_length :
    (encodeEntry blk wordEn logMap).length = 2 + 2 * (enabledWords wordEn).length := by
  simp [encodeEntry, entryCells_length]
  omega

theorem entryHdr_nibbles : ∀ blk : UInt8,
    (entryHdr blk &&& 0x0F) <<< 4 = blk &&& 0xF0 ∧ entryHdr blk ≠ 0xff ∧
      (blk &&& 0x0F).toNat < 16 ∧ (blk &&& 0x0F) ||| (blk &&& 0xF0) = blk := by
  decide +kernel

theorem entryHdr2_nibbles : ∀ l < 16, ∀ n < 15,
    (((UInt8.ofNat l <<< 4) + UInt8.ofNat n) &&& 0xF0) >>> 4 = UInt8.ofNat l ∧
      ((UInt8.ofNat l <<< 4) + UInt8.ofNat n) &&& 0x0F = UInt8.ofNat n ∧
      (UInt8.ofNat l <<< 4) + UInt8.ofNat n ≠ 0xff := by
  decide +kernel

theorem header_roundtrip (blk : UInt8) (hwe : wordEn < 15) :
    blkIdxOf (entryHdr blk) (entryHdr2 blk wordEn) = blk ∧
      entryHdr2 blk wordEn &&& 0x0F = wordEn ∧
      entryHdr blk ≠ 0xff ∧ entryHdr2 blk wordEn ≠ 0xff := by
  have hn : wordEn.toNat < 15 := hwe
  obtain ⟨hhigh, hne, hlt, hjoin⟩ := entryHdr_nibbles blk
  have hlow := entryHdr2_nibbles (blk &&& 0x0F).toNat hlt wordEn.toNat hn
  rw [UInt8.ofNat_toNat, UInt8.ofNat_toNat] at hlow
  obtain ⟨hblk, hword, hne2⟩ := hlow
  refine ⟨?_, hword, hne, hne2⟩
  unfold blkIdxOf entryHdr2
  rw [hblk, hhigh, hjoin]

theorem enabledWords_ne_nil : ∀ n < 15, enabledWords (UInt8.ofNat n) ≠ [] := by
  decide +kernel

theorem assignWords_place (mem : Map) :
    assignWords (place mem i ((entryCells blk is).map logMap)) blk is i =
      (entryCells blk is).map fun c => (c, logMap c) := by
  induction is generalizing mem i with
  | nil => rfl
  | cons w is ih =>
    have hcells : entryCells blk (w :: is) =
        (8 * blk.toNat + 2 * w) :: (8 * blk.toNat + 2 * w + 1) :: entryCells blk is := rfl
    rw [hcells, List.map_cons, List.map_cons, place_cons, place_cons]
    simp only [assignWords, List.map_cons]
    generalize logMap (8 * blk.toNat + 2 * w) = byte1
    generalize logMap (8 * blk.toNat + 2 * w + 1) = byte2
    have htail := ih (i := i + 2) (place (place mem i [byte1]) (i + 1) [byte2])
    have h₁ : place mem i [byte1] i = byte1 := place_get (k := 0) (by simp)
    have h₂ (m : Map) : place m (i + 1) [byte2] (i + 1) = byte2 := place_get (k := 0) (by simp)
    rw [place_of_lt (show i < i + 1 + 1 by omega), place_of_lt (show i < i + 1 by omega), h₁,
      place_of_lt (show i + 1 < i + 1 + 1 by omega), h₂, htail]

/-- **An entry that was written is read**, if it fits. -/
theorem readEntry_encodeEntry (blk : UInt8) (logMap : Map) (hwe : wordEn < 15)
    (hfit : i + (encodeEntry blk wordEn logMap).length ≤ efuseSize) (mem : Map) :
    readEntry (place mem i (encodeEntry blk wordEn logMap)) i =
      some ((entryCells blk (enabledWords wordEn)).map fun c => (c, logMap c),
        i + (encodeEntry blk wordEn logMap).length) := by
  obtain ⟨hblk, hword, hne, hne2⟩ := header_roundtrip blk hwe
  have hwords := enabledWords_ne_nil wordEn.toNat hwe
  rw [UInt8.ofNat_toNat] at hwords
  have hpos := List.length_pos_of_ne_nil hwords
  rw [encodeEntry_length] at hfit ⊢
  -- the two header bytes
  have h₀ : place mem i (encodeEntry blk wordEn logMap) i = entryHdr blk :=
    place_get (k := 0) (by simp [encodeEntry])
  have h₁ : place mem i (encodeEntry blk wordEn logMap) (i + 1) = entryHdr2 blk wordEn :=
    place_get (k := 1) (by simp [encodeEntry])
  rw [readEntry_eq_some]
  refine ⟨blk, wordEn, ?_, by omega, by omega, by omega, ?_⟩
  · rw [readHdr_eq_entry, h₀, h₁]
    exact ⟨by omega, hne, hne2, hblk, hword, rfl⟩
  · -- the data behind them
    unfold encodeEntry
    rw [place_cons, place_cons]
    exact (assignWords_place _).symm

end Rtl88x2eu.Efuse
