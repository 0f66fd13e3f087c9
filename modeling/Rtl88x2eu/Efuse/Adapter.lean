import Rtl88x2eu.Lib.Failing
import Rtl88x2eu.Efuse.Map

/-!
# The efuse operations of the adapter

The functions of `halmac_efuse_8822e.c` as programs over the adapter and the efuse behind it. Every
allocation, every poll of the ready bit and every packet to the firmware may fail: the state carries
the outcomes of the attempts to come, and `expect` takes the next one. The hardware stores a
byte as `burn` says, so that what follows is not tied to cells that take every value.

The delays, the power-cut registers and the log texts are left out.

## Main definitions

* `Adapter`
* `readHwEfuse`, `writeHwEfuse`: the accesses to the cells
* `readLogEfuseMap`
* `procWriteLogEfuse`, `procWriteLogEfuseWord`: one byte or one word appended to the log
* `updateEepromMask`, `checkEfuseEnough`, `programEfuse`, `procPgEfuseByMap`: a whole map
-/

namespace Rtl88x2eu.Efuse

open RecordLog Failing

/-- The error codes of these functions; `HALMAC_RET_SUCCESS` is a return. -/
inductive RetStatus where
  | mallocFail | efuseRFail | efuseWFail | eepromParsingFail | efuseNotEnough | adrNotAlign
  | efuseVerErr | errorState | busyState | efuseSizeIncorrect | efuseBankIncorrect | noDlfw
  | nullPointer | chipNotSupport | h2cSpaceFull | sendH2cFail
  deriving DecidableEq

/-- `enum halmac_cmd_construct_state` -/
inductive CmdCnstr where
  | idle | busy | h2cSent | cnstr | bufClr | undefined
  deriving DecidableEq

inductive CmdProcess where
  | idle | sending | rcvd | done | error | undefine
  deriving DecidableEq

/-- `enum halmac_dlfw_state`, as far as `halmac_fw_validate` and the dump tell it apart. -/
inductive DlfwState where
  | none | done | genInfoSent | undefined
  deriving DecidableEq

inductive Interface where
  | pcie | usb | sdio | axi | undefine
  deriving DecidableEq

/-- The features that signal an event with a map. -/
inductive Feature where
  | dumpPhysicalEfuse | dumpLogicalEfuse | dumpLogicalEfuseMask
  deriving DecidableEq

inductive C2hPart where
  | part1 | part2
  deriving DecidableEq

structure EfuseState where
  cmdCnstrState : CmdCnstr := .idle
  procStatus : CmdProcess := .idle
  fwRc : UInt8 := 0
  seqNum : UInt8 := 0
  deriving DecidableEq

/-- The efuse fields of `struct halmac_event` -/
structure Evnt where
  phyEfuseMap : Bool := false
  logEfuseMap : Bool := false
  logEfuseMask : Bool := false
  deriving DecidableEq

/-- The adapter's efuse fields, the efuse, the outcomes to come. -/
structure Adapter where
  cells : Map
  /-- what a cell holds after a write, by its address, its old value and the byte it was given -/
  burn : ℕ → UInt8 → UInt8 → UInt8
  /-- the bytes the efuse was given, in order -/
  burned : List (ℕ × UInt8) := []
  /-- the outcomes of the next attempts -/
  answers : ℕ → Bool := fun _ => true
  /-- the register `REG_H2C_PKT_READADDR` -/
  h2cPktReadaddr : ℕ := 0
  fwDump : Option C2hPart := none
  /-- the events that were signalled, with the buffers they pass -/
  signals : List (Feature × CmdProcess × Map) := []
  /-- the memory behind `efuse_map`, or which the next allocation of it will get -/
  efuseMap : Map := blank
  efuseMapNull : Bool := true
  efuseMapValid : Bool := false
  efuseEnd : ℕ := 0
  efuseAutoCheckEn : Bool := false
  efuseSegSize : ℕ := 0
  efuseState : EfuseState := {}
  evnt : Evnt := {}
  dlfwState : DlfwState := .none
  intf : Interface := .usb
  h2cSeqNum : UInt8 := 0
  btSwitch : Bool := false
  efuseC2hPart : C2hPart := .part1

/-- The functions of the file. -/
abbrev M := Prog RetStatus Adapter

/-- The next attempt, with the error that its failure causes. -/
def expect (e : RetStatus) : M Unit := do
  let ok ← look fun s => s.answers 0
  modify fun s => { s with answers := fun n => s.answers (n + 1) }
  failIf (ok = false) e

/-- `read_hw_efuse_8822e`; the buffer that it fills is the value. -/
def readHwEfuse (offset : ℕ) : ℕ → M Map
  | 0 => pure blank
  | size + 1 => do
    let map ← readHwEfuse offset size
    expect .efuseRFail
    let data ← look fun s => s.cells (offset + size)
    pure (Function.update map size data)

def writeHwEfuse (offset : ℕ) (value : UInt8) : M Unit := do
  modify fun s => { s with efuseMapValid := false }
  modify fun s => { s with
    cells := Function.update s.cells offset (s.burn offset (s.cells offset) value)
    burned := s.burned ++ [(offset, value)] }
  expect .efuseWFail
  let check ← look fun s => s.efuseAutoCheckEn
  onlyIf (check = true) do
    let valueRead ← readHwEfuse offset 1
    failIf (valueRead 0 ≠ value) .efuseWFail

/-- Calls of `write_hw_efuse_8822e` one after another, each returning early. -/
def writeBytes (offset : ℕ) : List UInt8 → M Unit
  | [] => pure ()
  | value :: values => do
    writeHwEfuse offset value
    writeBytes (offset + 1) values

/-- `PLTFM_MEMCPY` of a whole map; the memory behind the buffer keeps what it holds. -/
def copyMap (src dst : Map) : Map := fun n => if n < efuseSize then src n else dst n

def eepromParser (phyMap : Map) : M Map := do
  let bt ← look fun s => s.btSwitch
  let parsed ← orThrow (eepromParse bt phyMap) .eepromParsingFail
  modify fun s => { s with efuseEnd := parsed.2 }
  pure parsed.1

def eepromMaskParser (phyMap : Map) : M Map := do
  let parsed ← orThrow (maskParse phyMap) .eepromParsingFail
  modify fun s => { s with efuseEnd := parsed.2 }
  pure parsed.1

def refillEfuseMap : M Unit := do
  expect .mallocFail
  -- `read_efuse_8822e` of an invalid copy reads the cells
  let localMap ← readHwEfuse 0 efuseSize
  let null ← look fun s => s.efuseMapNull
  onlyIf (null = true) do
    expect .mallocFail
    modify fun s => { s with efuseMapNull := false }
  modify fun s => { s with efuseMap := copyMap localMap s.efuseMap, efuseMapValid := true }

/-- The logical map, from the adapter's copy or from the cells. -/
def readLogEfuseMap : M Map := do
  let valid ← look fun s => s.efuseMapValid
  onlyIf (valid = false) refillEfuseMap
  let efuseMap ← look fun s => s.efuseMap
  eepromParser efuseMap

def bt1bEntrySize : ℕ := 0x80

def logEntryHdr (btSwitch : Bool) (offset : ℕ) : List UInt8 :=
  let wordBit : UInt8 := ((1 : UInt8) <<< UInt8.ofNat ((offset % 8) / 2)) ^^^ 0x0F
  if btSwitch then
    if offset < bt1bEntrySize then
      let blk := UInt8.ofNat (offset / 8)
      [(blk <<< 4) + wordBit]
    else
      let blk := UInt8.ofNat (offset / 8 / 8)
      let blkIdx := UInt8.ofNat (((offset / 8) % 8) * 2)
      [(blkIdx <<< 4) + 0xF, (blk <<< 4) + wordBit]
  else
    let blk := UInt8.ofNat (offset / 8)
    [entryHdr blk, entryHdr2 blk wordBit]

def procWriteLogEfuse (offset : ℕ) (value : UInt8) : M Unit := do
  expect .mallocFail
  let map ← readLogEfuseMap
  onlyIf (map offset ≠ value) do
    let efuseEnd ← look fun s => s.efuseEnd
    let bt ← look fun s => s.btSwitch
    let byte1 := if offset % 2 = 0 then value else map (offset - 1)
    let byte2 := if offset % 2 = 0 then map (offset + 1) else value
    failIf (efuseSize ≤ (if bt = false ∨ bt1bEntrySize ≤ offset then 4 else 3) + efuseEnd)
      .efuseNotEnough
    writeBytes efuseEnd (logEntryHdr bt offset ++ [byte1, byte2])

/-- `proc_write_log_efuse_word_8822e`, which looks at the alignment only after it has compared. -/
def procWriteLogEfuseWord (offset : ℕ) (value : UInt16) : M Unit := do
  expect .mallocFail
  let map ← readLogEfuseMap
  let byte1 := (value &&& 0xFF).toUInt8
  let byte2 := ((value >>> 8) &&& 0xFF).toUInt8
  onlyIf (¬ (map offset = byte1 ∧ map (offset + 1) = byte2)) do
    let efuseEnd ← look fun s => s.efuseEnd
    let bt ← look fun s => s.btSwitch
    failIf (offset % 2 ≠ 0) .adrNotAlign
    failIf (efuseSize ≤ 4 + efuseEnd) .efuseNotEnough
    writeBytes efuseEnd (logEntryHdr bt offset ++ [byte1, byte2])

/-! ## A whole map -/

structure PgEfuseInfo where
  efuseMap : Map
  efuseMapNull : Bool := false
  efuseMapSize : ℕ
  efuseMask : Map
  efuseMaskNull : Bool := false
  efuseMaskSize : ℕ

def pgVerLen : ℕ := 7

def compareVersion (info : PgEfuseInfo) : M Unit :=
  failIf (¬ ∀ i < pgVerLen,
    info.efuseMap (info.efuseMapSize + i) = info.efuseMask (info.efuseMaskSize + i)) .efuseVerErr

/-- The values of `for (i = 0; i < size; i += step)`. -/
def strides (step size : ℕ) : List ℕ := (List.range ((size + step - 1) / step)).map (step * ·)

/-- `clr_bit`: the bit of a mask byte for the word at `j` of its sixteen bytes. -/
def clrBit (j : ℕ) : UInt8 :=
  match j with
  | 0 => 0x10
  | 2 => 0x20
  | 4 => 0x40
  | 6 => 0x80
  | 8 => 0x01
  | 10 => 0x02
  | 12 => 0x04
  | 14 => 0x08
  | _ => 0

def alreadyProgrammed (info : PgEfuseInfo) (map maskMap : Map) (mapOffset : ℕ) : Prop :=
  (info.efuseMap mapOffset = map mapOffset ∧ info.efuseMap (mapOffset + 1) = map (mapOffset + 1)) ∧
    maskMap mapOffset = 0x00

instance decidableAlreadyProgrammed (info : PgEfuseInfo) (map maskMap : Map) (mapOffset : ℕ) :
    Decidable (alreadyProgrammed info map maskMap mapOffset) :=
  inferInstanceAs (Decidable (_ ∧ _))

def updatedMaskOf (info : PgEfuseInfo) (map maskMap : Map) : Map :=
  (strides 16 info.efuseMapSize).foldl
    (fun mask i => (strides 2 16).foldl
      (fun mask j =>
        if alreadyProgrammed info map maskMap (i + j) then
          Function.update mask (i / 16) (mask (i / 16) &&& ~~~ clrBit j)
        else mask) mask)
    fun k => if k < info.efuseMaskSize then info.efuseMask k else 0x00

/-- `update_eeprom_mask_8822e`; the mask that it fills is the value. -/
def updateEepromMask (info : PgEfuseInfo) : M Map := do
  expect .mallocFail
  let map ← readLogEfuseMap
  expect .mallocFail
  let efuseMap ← look fun s => s.efuseMap
  let maskMap ← eepromMaskParser efuseMap
  pure (updatedMaskOf info map maskMap)

def pgWords (preWordEn : UInt8) : List ℕ :=
  [0, 1, 2, 3].filter fun j => ((preWordEn >>> UInt8.ofNat j) &&& 1) > 0

def checkPreWordEn (updatedMask : Map) (i : ℕ) : UInt8 :=
  if i &&& 7 > 0 then updatedMask (i / 16) &&& 0x0F else updatedMask (i / 16) >>> 4

def pgPreWordEn (updatedMask : Map) (i : ℕ) : UInt8 :=
  if (i / 8) &&& 1 > 0 then updatedMask (i / 16) &&& 0x0F else updatedMask (i / 16) >>> 4

def entrySize (preWordEn : UInt8) : ℕ :=
  if preWordEn > 0 then (pgWords preWordEn).foldl (fun pgNum _ => pgNum + 2) 2 else 0

def pgNum (info : PgEfuseInfo) (updatedMask : Map) : ℕ :=
  (strides 8 info.efuseMapSize).foldl
    (fun pgNum i => pgNum + entrySize (checkPreWordEn updatedMask i)) 0

def checkEfuseEnough (info : PgEfuseInfo) (updatedMask : Map) : M Unit := do
  let efuseEnd ← look fun s => s.efuseEnd
  failIf (efuseSize ≤ pgNum info updatedMask + efuseEnd) .efuseNotEnough

def pgEntryBytes (info : PgEfuseInfo) (wordEn preWordEn : UInt8) (eepromOffset : ℕ) : List UInt8 :=
  let blk := UInt8.ofNat (eepromOffset / 8)
  entryHdr blk :: entryHdr2 blk wordEn :: (pgWords preWordEn).flatMap fun i =>
    [info.efuseMap (eepromOffset + 2 * i), info.efuseMap (eepromOffset + 2 * i + 1)]

def procPgEfuse (info : PgEfuseInfo) (wordEn preWordEn : UInt8) (eepromOffset : ℕ) : M Unit := do
  let efuseEnd ← look fun s => s.efuseEnd
  let bytes := pgEntryBytes info wordEn preWordEn eepromOffset
  writeBytes efuseEnd bytes
  modify fun s => { s with efuseEnd := efuseEnd + bytes.length }

def programEfuse (info : PgEfuseInfo) (updatedMask : Map) : M Unit :=
  forM (strides 8 info.efuseMapSize) fun i => do
    let preWordEn := pgPreWordEn updatedMask i
    let wordEn := preWordEn ^^^ 0x0F
    onlyIf (preWordEn > 0) (procPgEfuse info wordEn preWordEn i)

def procPgEfuseByMap (info : PgEfuseInfo) : M Unit := do
  compareVersion info
  expect .mallocFail
  let updatedMask ← updateEepromMask info
  checkEfuseEnough info updatedMask
  programEfuse info updatedMask

end Rtl88x2eu.Efuse
