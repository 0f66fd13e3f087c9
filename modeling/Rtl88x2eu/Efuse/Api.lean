import Rtl88x2eu.Efuse.Writers
import Rtl88x2eu.Lib.Transition

/-!
# The efuse API and the reports of the firmware

The entry points that `halmac_init_8822e.c` mounts, each with its checks, the move to BUSY, its work
and the move back to IDLE, and the two functions that take what the firmware sends for a dump. A
failure in between returns at once, so that the state it leaves is the one it had reached.

The firmware is the environment: `fwDump` is the part of a dump that it has still to report. A step
of the system is a call of the API with the outcomes of what it attempts, or a segment or an
acknowledgement of the firmware, which may be lost on the way.

## Main definitions

* `cnvEfuseState`, `procDumpEfuse`: the state transitions and the two ways to dump
* `exclusive`
* `Call`, `Call.exec`: the entry points
* `getEfuseData`, `getH2cAckPhyEfuse`: the reports
* `Event`, `step`: the steps of the system
-/

namespace Rtl88x2eu.Efuse

open Failing

def cnvEfuseState (destState : CmdCnstr) : M Unit := do
  let state ← look fun s => s.efuseState.cmdCnstrState
  failIf (state ≠ .idle ∧ state ≠ .busy ∧ state ≠ .h2cSent) .errorState
  failIf (state = destState) .errorState
  failIf (destState = .busy ∧ state = .h2cSent) .errorState
  failIf (destState = .h2cSent ∧ state = .idle) .errorState
  modify fun s => { s with efuseState := { s.efuseState with cmdCnstrState := destState } }

def setProcStatus (procStatus : CmdProcess) : M Unit :=
  modify fun s => { s with efuseState := { s.efuseState with procStatus := procStatus } }

def resetOfldFeature : M Unit :=
  modify fun s => { s with
    efuseState := { s.efuseState with procStatus := .idle, cmdCnstrState := .idle } }

def checkReady : M Unit := do
  let procStatus ← look fun s => s.efuseState.procStatus
  failIf (procStatus = .sending) .busyState
  let state ← look fun s => s.efuseState.cmdCnstrState
  failIf (state ≠ .idle) .errorState

/-- The frame of the entry points that read or write. -/
def exclusive {α : Type} (body : M α) : M α := do
  checkReady
  cnvEfuseState .busy
  let value ← body
  cnvEfuseState .idle
  pure value

/-! ## Dumps -/

inductive ReadCfg where
  | auto | drv | fw | undefine
  deriving DecidableEq

def fwValidate (s : Adapter) : Prop := s.dlfwState = .done ∨ s.dlfwState = .genInfoSent

instance decidableFwValidate (s : Adapter) : Decidable (fwValidate s) :=
  inferInstanceAs (Decidable (_ ∨ _))

/-- The next attempt, where its failure resets the command state first. -/
def expectOrReset (e : RetStatus) : M Unit := do
  let ok ← look fun s => s.answers 0
  modify fun s => { s with answers := fun n => s.answers (n + 1) }
  onlyIf (ok = false) resetOfldFeature
  failIf (ok = false) e

def allocEfuseMap : M Unit := do
  let null ← look fun s => s.efuseMapNull
  onlyIf (null = true) do
    expectOrReset .mallocFail
    modify fun s => { s with efuseMapNull := false }

def dumpEfuseDrv : M Unit := do
  allocEfuseMap
  let valid ← look fun s => s.efuseMapValid
  onlyIf (valid = false) do
    expect .mallocFail
    let map ← readHwEfuse 0 efuseSize
    modify fun s => { s with efuseMap := copyMap map s.efuseMap, efuseMapValid := true }

/-- `dump_efuse_fw_8822e`; the firmware begins to report when it has the packet. -/
def dumpEfuseFw : M Unit := do
  modify fun s => { s with
    efuseState := { s.efuseState with seqNum := s.h2cSeqNum }, h2cSeqNum := s.h2cSeqNum + 1 }
  allocEfuseMap
  let valid ← look fun s => s.efuseMapValid
  onlyIf (valid = false) do
    -- `send_h2c_pkt_88xx`: a free buffer, then the transfer
    expectOrReset .h2cSpaceFull
    expectOrReset .sendH2cFail
    modify fun s => { s with fwDump := some .part1 }

/-- The firmware is asked, not the efuse. -/
def UsesFw (cfg : ReadCfg) (s : Adapter) : Prop :=
  cfg = .fw ∨ cfg = .auto ∧ ¬ (s.dlfwState = .none ∨ s.h2cPktReadaddr = 0)

instance decidableUsesFw (cfg : ReadCfg) (s : Adapter) : Decidable (UsesFw cfg s) :=
  inferInstanceAs (Decidable (_ ∨ _))

def procDumpEfuse (cfg : ReadCfg) : M Unit := do
  setProcStatus .sending
  cnvEfuseState .busy
  let usesFw ← look fun s => decide (UsesFw cfg s)
  if usesFw then dumpEfuseFw else dumpEfuseDrv

def Evnt.set (evnt : Evnt) (feature : Feature) (waits : Bool) : Evnt :=
  match feature with
  | .dumpPhysicalEfuse => { evnt with phyEfuseMap := waits }
  | .dumpLogicalEfuse => { evnt with logEfuseMap := waits }
  | .dumpLogicalEfuseMask => { evnt with logEfuseMask := waits }

def Evnt.waits (evnt : Evnt) (feature : Feature) : Bool :=
  match feature with
  | .dumpPhysicalEfuse => evnt.phyEfuseMap
  | .dumpLogicalEfuse => evnt.logEfuseMap
  | .dumpLogicalEfuseMask => evnt.logEfuseMask

/-- `PLTFM_EVENT_SIG`, after which the feature waits no more. -/
def signal (feature : Feature) (buf : Map) : M Unit :=
  modify fun s => { s with
    signals := s.signals ++ [(feature, s.efuseState.procStatus, buf)]
    evnt := s.evnt.set feature false }

def featureMap (feature : Feature) : M Map := do
  let efuseMap ← look fun s => s.efuseMap
  match feature with
  | .dumpPhysicalEfuse => pure efuseMap
  | .dumpLogicalEfuse => eepromParser efuseMap
  | .dumpLogicalEfuseMask => eepromMaskParser efuseMap

def passMap (feature : Feature) : M Unit := do
  setProcStatus .done
  expect .mallocFail
  let map ← featureMap feature
  signal feature map

def dumpEfuse (feature : Feature) (cfg : ReadCfg) : M Unit := do
  let noFw ← look fun s => decide (cfg = .fw ∧ ¬ fwValidate s)
  failIf (noFw = true) .noDlfw
  checkReady
  setProcStatus .idle
  modify fun s => { s with evnt := s.evnt.set feature true }
  procDumpEfuse cfg
  let valid ← look fun s => s.efuseMapValid
  onlyIf (valid = true) (passMap feature)
  cnvEfuseState .idle

def dumpEfuseMap : ReadCfg → M Unit := dumpEfuse .dumpPhysicalEfuse

def dumpLogEfuseMap : ReadCfg → M Unit := dumpEfuse .dumpLogicalEfuse

def dumpLogEfuseMask : ReadCfg → M Unit := dumpEfuse .dumpLogicalEfuseMask

def getEfuseAvailableSize : M ℕ := do
  dumpLogEfuseMap .drv
  let efuseEnd ← look fun s => s.efuseEnd
  pure (efuseSize - efuseEnd)

/-! ## The BT part -/

def btEfuseSize : ℕ := 512

def btStartOffset : ℕ := 0x600

def bankWifi : ℕ := 0

def bankMax : ℕ := 4

/-- An access under `bt_switch`, which is cleared on both ways out. -/
def switched {α : Type} (access : M α) : M α := do
  modify fun s => { s with btSwitch := true }
  let value ← onError (fun s => { s with btSwitch := false }) access
  modify fun s => { s with btSwitch := false }
  pure value

def dumpEfuseMapBt (bank size : ℕ) : M Map := do
  failIf (btEfuseSize ≠ size) .efuseSizeIncorrect
  failIf (bank ≥ bankMax ∨ bank = bankWifi) .efuseBankIncorrect
  exclusive (switched (readHwEfuse btStartOffset size))

def checkBt (offset bank : ℕ) : M Unit := do
  failIf (offset ≥ btEfuseSize) .efuseSizeIncorrect
  failIf (bank > bankMax ∨ bank = bankWifi) .efuseBankIncorrect

def writeEfuseBt (offset : ℕ) (value : UInt8) (bank : ℕ) : M Unit :=
  exclusive do
    checkBt offset bank
    switched (writeHwEfuse (offset + btStartOffset) value)

def readEfuseBt (offset bank : ℕ) : M UInt8 :=
  exclusive do
    checkBt offset bank
    let map ← switched (readHwEfuse (offset + btStartOffset) 1)
    pure (map 0)

/-! ## The logical map and the physical cells -/

def readLogicalEfuse (offset : ℕ) : M UInt8 := do
  failIf (offset ≥ eepromSize) .efuseSizeIncorrect
  exclusive do
    expect .mallocFail
    let map ← readLogEfuseMap
    pure (map offset)

def writeLogEfuse (offset : ℕ) (value : UInt8) : M Unit := do
  failIf (offset ≥ eepromSize) .efuseSizeIncorrect
  exclusive (procWriteLogEfuse offset value)

def writeLogEfuseWord (offset : ℕ) (value : UInt16) : M Unit := do
  failIf (offset ≥ eepromSize) .efuseSizeIncorrect
  exclusive (procWriteLogEfuseWord offset value)

/-- `LIM_LOG_SIZE_PCIE_8822E`, which is the size for USB and SDIO as well. -/
def limLogSize : ℕ := 416

def checkPgInfo (info : PgEfuseInfo) : M Unit := do
  let intf ← look fun s => s.intf
  onlyIf (info.efuseMapSize ≠ eepromSize) do
    failIf (intf ≠ .pcie ∧ intf ≠ .usb ∧ intf ≠ .sdio) .chipNotSupport
    failIf (info.efuseMapSize ≠ limLogSize) .efuseSizeIncorrect
  failIf (info.efuseMapSize % 16 > 0) .efuseSizeIncorrect
  failIf (info.efuseMaskSize ≠ info.efuseMapSize / 16) .efuseSizeIncorrect
  failIf (info.efuseMapNull = true) .nullPointer
  failIf (info.efuseMaskNull = true) .nullPointer

def pgEfuseByMap (info : PgEfuseInfo) : M Unit := do
  checkPgInfo info
  exclusive (procPgEfuseByMap info)

def prtctEfuseSize : ℕ := 192 + 128 + 512

def writeWifiPhyEfuse (offset : ℕ) (value : UInt8) : M Unit := do
  failIf (offset ≥ efuseSize + prtctEfuseSize) .efuseSizeIncorrect
  exclusive (writeHwEfuse offset value)

/-- `read_wifi_phy_efuse_8822e`; the sum of two `u32` wraps around. -/
def readWifiPhyEfuse (offset size : ℕ) : M Map := do
  failIf (offset ≥ efuseSize + prtctEfuseSize ∨
    (offset + size) % 2 ^ 32 > efuseSize + prtctEfuseSize) .efuseSizeIncorrect
  exclusive (readHwEfuse offset size)

/-! ## The reports of the firmware -/

/-- One `C2H` packet with a segment of a dump. -/
structure EfuseData where
  h2cSeq : UInt8
  segmentId : ℕ
  segmentSize : ℕ
  endSegment : Bool
  data : Map

def efusePart1End : ℕ := 1024

def storeSegment (buf : EfuseData) (s : Adapter) : Map := fun n =>
  let segOffset := buf.segmentId * s.efuseSegSize
  match s.efuseC2hPart with
  | .part1 =>
    if segOffset ≤ n ∧ n < segOffset + buf.segmentSize then buf.data (n - segOffset)
    else s.efuseMap n
  | .part2 =>
    let segOffset := segOffset + efusePart1End
    if segOffset ≤ n ∧ n < segOffset + buf.segmentSize ∧ n < efuseSize then
      buf.data (n - segOffset)
    else s.efuseMap n

def signalWaiting (feature : Feature) (buf : M Map) : M Unit := do
  let waits ← look fun s => s.evnt.waits feature
  onlyIf (waits = true) do
    let map ← buf
    signal feature map

def finishDump : M Unit := do
  let fwRc ← look fun s => s.efuseState.fwRc
  if fwRc = 0 then do
    setProcStatus .done
    modify fun s => { s with efuseMapValid := true }
    signalWaiting .dumpPhysicalEfuse (featureMap .dumpPhysicalEfuse)
    signalWaiting .dumpLogicalEfuse (featureMap .dumpLogicalEfuse)
    signalWaiting .dumpLogicalEfuseMask (featureMap .dumpLogicalEfuseMask)
  else do
    setProcStatus .error
    signalWaiting .dumpPhysicalEfuse (pure fun _ => fwRc)
    signalWaiting .dumpLogicalEfuse (pure fun _ => fwRc)
    signalWaiting .dumpLogicalEfuseMask (pure fun _ => fwRc)

def getEfuseData (buf : EfuseData) : M Unit := do
  let state ← look fun s => s.efuseState
  onlyIf (buf.h2cSeq = state.seqNum ∧ state.procStatus = .sending) do
    onlyIf (buf.segmentId = 0) do
      modify fun s => { s with efuseSegSize := buf.segmentSize }
    expect .mallocFail
    modify fun s => { s with efuseMap := storeSegment buf s }
    onlyIf (buf.endSegment = true) do
      let part ← look fun s => s.efuseC2hPart
      if part = .part1 then modify fun s => { s with efuseC2hPart := .part2 }
      else do
        modify fun s => { s with efuseC2hPart := .part1 }
        finishDump

def getH2cAckPhyEfuse (h2cSeq fwRc : UInt8) : M Unit := do
  let state ← look fun s => s.efuseState
  onlyIf (h2cSeq = state.seqNum ∧ state.procStatus = .sending) do
    modify fun s => { s with efuseState := { s.efuseState with fwRc := fwRc } }

inductive Call where
  | dumpEfuseMap (cfg : ReadCfg)
  | dumpLogEfuseMap (cfg : ReadCfg)
  | dumpLogEfuseMask (cfg : ReadCfg)
  | getEfuseAvailableSize
  | dumpEfuseMapBt (bank size : ℕ)
  | writeEfuseBt (offset : ℕ) (value : UInt8) (bank : ℕ)
  | readEfuseBt (offset bank : ℕ)
  | readLogicalEfuse (offset : ℕ)
  | writeLogEfuse (offset : ℕ) (value : UInt8)
  | writeLogEfuseWord (offset : ℕ) (value : UInt16)
  | pgEfuseByMap (info : PgEfuseInfo)
  | writeWifiPhyEfuse (offset : ℕ) (value : UInt8)
  | readWifiPhyEfuse (offset size : ℕ)

def Call.exec (s : Adapter) : Call → Adapter
  | dumpEfuseMap cfg => (Failing.exec (Efuse.dumpEfuseMap cfg) s).2
  | dumpLogEfuseMap cfg => (Failing.exec (Efuse.dumpLogEfuseMap cfg) s).2
  | dumpLogEfuseMask cfg => (Failing.exec (Efuse.dumpLogEfuseMask cfg) s).2
  | getEfuseAvailableSize => (Failing.exec Efuse.getEfuseAvailableSize s).2
  | dumpEfuseMapBt bank size => (Failing.exec (Efuse.dumpEfuseMapBt bank size) s).2
  | writeEfuseBt offset value bank => (Failing.exec (Efuse.writeEfuseBt offset value bank) s).2
  | readEfuseBt offset bank => (Failing.exec (Efuse.readEfuseBt offset bank) s).2
  | readLogicalEfuse offset => (Failing.exec (Efuse.readLogicalEfuse offset) s).2
  | writeLogEfuse offset value => (Failing.exec (Efuse.writeLogEfuse offset value) s).2
  | writeLogEfuseWord offset value => (Failing.exec (Efuse.writeLogEfuseWord offset value) s).2
  | pgEfuseByMap info => (Failing.exec (Efuse.pgEfuseByMap info) s).2
  | writeWifiPhyEfuse offset value => (Failing.exec (Efuse.writeWifiPhyEfuse offset value) s).2
  | readWifiPhyEfuse offset size => (Failing.exec (Efuse.readWifiPhyEfuse offset size) s).2

inductive Event where
  | call (c : Call) (answers : ℕ → Bool)
  | segment (buf : EfuseData) (lost : Bool) (answers : ℕ → Bool)
  | ack (h2cSeq fwRc : UInt8)

def fwNext (fwDump : Option C2hPart) (endSegment : Bool) : Option C2hPart :=
  match fwDump, endSegment with
  | some .part1, true => some .part2
  | some .part2, true => none
  | part, _ => part

def step (s : Adapter) : Event → Option Adapter
  | .call c answers => some (c.exec { s with answers := answers })
  | .segment buf lost answers =>
    let s := { s with answers := answers, fwDump := fwNext s.fwDump buf.endSegment }
    if lost then some s else some (exec (getEfuseData buf) s).2
  | .ack h2cSeq fwRc => some (exec (getH2cAckPhyEfuse h2cSeq fwRc) s).2

end Rtl88x2eu.Efuse
