import Rtl88x2eu.Efuse.Api

/-!
# The command state after failures

Every entry point moves the command state to BUSY and back to IDLE, and a dump by the firmware
leaves SENDING until the last segment has come. The two transitions are only undone on the way to
the end: a failure after the move to BUSY returns at once and leaves BUSY behind, after which every
call is refused. The exceptions are the failures that call `reset_ofld_feature_88xx`.

A run on which no call fails after it went BUSY, and no last segment of a dump gets lost, keeps the
state clean; calls that are refused by the checks before are harmless, and so are the failures that
reset.

## Main definitions

* `Recovered`, `Event.Ok`

## Main results

* `exclusive_clean`, `dumpEfuse_clean`, `segment_clean`: the steps
* `recovered_of_run`: the runs whose steps all meet the condition
* `not_recovered_badBank`: a wrong bank leaves BUSY behind
-/

namespace Rtl88x2eu.Efuse

open Failing Transition

variable {s s' t : Adapter} {α : Type} {buf : EfuseData}

/-- With no dump under way the command state is IDLE and not SENDING. -/
def Recovered (s : Adapter) : Prop :=
  s.fwDump = none →
    s.efuseState.cmdCnstrState = .idle ∧ s.efuseState.procStatus ≠ .sending

/-- After `init_ofld_feature_state_machine_88xx`. -/
structure Started (s : Adapter) : Prop where
  cmdCnstrState : s.efuseState.cmdCnstrState = .idle
  procStatus : s.efuseState.procStatus = .idle
  fwDump : s.fwDump = none
  efuseC2hPart : s.efuseC2hPart = .part1

/-- The driver is idle, and it waits for the part that the firmware has still to report. -/
structure Clean (s : Adapter) : Prop where
  idle : s.efuseState.cmdCnstrState = .idle
  rest : s.fwDump = none → s.efuseState.procStatus ≠ .sending ∧ s.efuseC2hPart = .part1
  dump : ∀ part, s.fwDump = some part →
    s.efuseState.procStatus = .sending ∧ s.efuseC2hPart = part

theorem Clean.recovered (h : Clean s) : Recovered s := fun hnone => ⟨h.idle, (h.rest hnone).1⟩

theorem Started.clean (h : Started s) : Clean s where
  idle := h.cmdCnstrState
  rest _ := ⟨by rw [h.procStatus]; decide, h.efuseC2hPart⟩
  dump part hpart := by
    rw [h.fwDump] at hpart
    cases hpart

def cmd (s : Adapter) : EfuseState × Option C2hPart × C2hPart :=
  (s.efuseState, s.fwDump, s.efuseC2hPart)

theorem Clean.of_cmd (h : Clean s) (hcmd : cmd t = cmd s) : Clean t := by
  obtain ⟨hstate, hdump⟩ := Prod.mk.inj hcmd
  obtain ⟨hdump, hpart⟩ := Prod.mk.inj hdump
  refine ⟨?_, ?_, ?_⟩
  · rw [hstate]
    exact h.idle
  · rw [hstate, hdump, hpart]
    exact h.rest
  · rw [hstate, hdump, hpart]
    exact h.dump

theorem clean_of_rest (hidle : s.efuseState.cmdCnstrState = .idle)
    (hrest : s.efuseState.procStatus ≠ .sending) (hnone : s.fwDump = none)
    (hpart : s.efuseC2hPart = .part1) : Clean s where
  idle := hidle
  rest _ := ⟨hrest, hpart⟩
  dump part h := by
    rw [hnone] at h
    cases h

/-! ## Operations that do not touch the command state -/

theorem frames_answers (s : Adapter) (a : ℕ → Bool) : cmd { s with answers := a } = cmd s := rfl

theorem frames_writeHwEfuse {offset : ℕ} {value : UInt8} :
    Frames cmd (writeHwEfuse offset value) := by
  unfold writeHwEfuse
  refine Frames.bind (Frames.modify fun _ => rfl) fun _ => ?_
  refine Frames.bind (Frames.modify fun _ => rfl) fun _ => ?_
  refine Frames.bind (frames_expect frames_answers) fun _ => ?_
  refine Frames.bind Frames.look fun _ => Frames.onlyIf ?_
  exact Frames.bind (frames_readHwEfuse frames_answers) fun _ => Frames.failIf

theorem frames_writeBytes {offset : ℕ} {bs : List UInt8} : Frames cmd (writeBytes offset bs) := by
  induction bs generalizing offset with
  | nil => exact Frames.pure
  | cons b bs ih => exact Frames.bind frames_writeHwEfuse fun _ => ih

theorem frames_eepromParser {τ : Type} {g : Adapter → τ} {phyMap : Map}
    (h : ∀ s e, g { s with efuseEnd := e } = g s) : Frames g (eepromParser phyMap) := by
  unfold eepromParser
  refine Frames.bind Frames.look fun _ => Frames.bind Frames.orThrow fun _ => ?_
  exact Frames.bind (Frames.modify fun s => h s _) fun _ => Frames.pure

theorem frames_eepromMaskParser {τ : Type} {g : Adapter → τ} {phyMap : Map}
    (h : ∀ s e, g { s with efuseEnd := e } = g s) : Frames g (eepromMaskParser phyMap) := by
  unfold eepromMaskParser
  refine Frames.bind Frames.orThrow fun _ => ?_
  exact Frames.bind (Frames.modify fun s => h s _) fun _ => Frames.pure

theorem frames_refillEfuseMap : Frames cmd refillEfuseMap := by
  unfold refillEfuseMap
  refine Frames.bind (frames_expect frames_answers) fun _ => ?_
  refine Frames.bind (frames_readHwEfuse frames_answers) fun _ => ?_
  refine Frames.bind Frames.look fun _ => ?_
  refine Frames.bind (Frames.onlyIf ?_) fun _ => Frames.modify fun _ => rfl
  exact Frames.bind (frames_expect frames_answers) fun _ => Frames.modify fun _ => rfl

theorem frames_readLogEfuseMap : Frames cmd readLogEfuseMap := by
  unfold readLogEfuseMap
  refine Frames.bind Frames.look fun _ => ?_
  refine Frames.bind (Frames.onlyIf frames_refillEfuseMap) fun _ => ?_
  exact Frames.bind Frames.look fun _ => frames_eepromParser fun _ _ => rfl

theorem frames_procWriteLogEfuse {offset : ℕ} {value : UInt8} :
    Frames cmd (procWriteLogEfuse offset value) := by
  unfold procWriteLogEfuse
  refine Frames.bind (frames_expect frames_answers) fun _ => ?_
  refine Frames.bind frames_readLogEfuseMap fun _ => Frames.onlyIf ?_
  refine Frames.bind Frames.look fun _ => Frames.bind Frames.look fun _ => ?_
  exact Frames.bind Frames.failIf fun _ => frames_writeBytes

theorem frames_procWriteLogEfuseWord {offset : ℕ} {value : UInt16} :
    Frames cmd (procWriteLogEfuseWord offset value) := by
  unfold procWriteLogEfuseWord
  refine Frames.bind (frames_expect frames_answers) fun _ => ?_
  refine Frames.bind frames_readLogEfuseMap fun _ => Frames.onlyIf ?_
  refine Frames.bind Frames.look fun _ => Frames.bind Frames.look fun _ => ?_
  refine Frames.bind Frames.failIf fun _ => Frames.bind Frames.failIf fun _ => ?_
  exact frames_writeBytes

theorem frames_updateEepromMask {info : PgEfuseInfo} : Frames cmd (updateEepromMask info) := by
  unfold updateEepromMask
  refine Frames.bind (frames_expect frames_answers) fun _ => ?_
  refine Frames.bind frames_readLogEfuseMap fun _ => ?_
  refine Frames.bind (frames_expect frames_answers) fun _ => Frames.bind Frames.look fun _ => ?_
  exact Frames.bind (frames_eepromMaskParser fun _ _ => rfl) fun _ => Frames.pure

theorem frames_programEfuse {info : PgEfuseInfo} {updatedMask : Map} :
    Frames cmd (programEfuse info updatedMask) := by
  unfold programEfuse procPgEfuse
  refine Frames.forM (fun _ => Frames.onlyIf ?_) _
  refine Frames.bind Frames.look fun _ => Frames.bind frames_writeBytes fun _ => ?_
  exact Frames.modify fun _ => rfl

theorem frames_procPgEfuseByMap {info : PgEfuseInfo} : Frames cmd (procPgEfuseByMap info) := by
  unfold procPgEfuseByMap compareVersion checkEfuseEnough
  refine Frames.bind Frames.failIf fun _ => ?_
  refine Frames.bind (frames_expect frames_answers) fun _ => ?_
  refine Frames.bind frames_updateEepromMask fun _ => ?_
  refine Frames.bind (Frames.bind Frames.look fun _ => Frames.failIf) fun _ => ?_
  exact frames_programEfuse

theorem frames_switched {access : M α} (h : Frames cmd access) : Frames cmd (switched access) := by
  unfold switched
  refine Frames.bind (Frames.modify fun _ => rfl) fun _ => ?_
  refine Frames.bind (Frames.onError (fun _ => rfl) h) fun _ => ?_
  exact Frames.bind (Frames.modify fun _ => rfl) fun _ => Frames.pure

def busy (s : Adapter) : Adapter :=
  { s with efuseState := { s.efuseState with cmdCnstrState := .busy } }

theorem exec_checkReady (h : s.efuseState.cmdCnstrState = .idle) :
    exec checkReady s =
      (if s.efuseState.procStatus = .sending then .error .busyState else .ok (), s) := by
  unfold checkReady
  rw [exec_bind, exec_look]
  dsimp only
  rw [exec_bind, exec_failIf]
  by_cases hsending : s.efuseState.procStatus = .sending
  · rw [if_pos hsending]
  · rw [if_neg hsending]
    dsimp only
    rw [exec_bind, exec_look]
    dsimp only
    rw [exec_failIf, if_neg (not_not.mpr h)]

theorem returns_cnvBusy (h : s.efuseState.cmdCnstrState = .idle) :
    Returns (cnvEfuseState .busy) s () (busy s) := by
  simp only [cnvEfuseState, returns_bind, returns_look, returns_failIf, returns_modify]
  exact ⟨_, _, ⟨rfl, rfl⟩, (), _, ⟨by simp [h], rfl⟩, (), _, ⟨by simp [h], rfl⟩, (), _,
    ⟨by simp [h], rfl⟩, (), _, ⟨by simp, rfl⟩, rfl⟩

theorem returns_cnvIdle (h : s.efuseState.cmdCnstrState = .busy) :
    Returns (cnvEfuseState .idle) s ()
      { s with efuseState := { s.efuseState with cmdCnstrState := .idle } } := by
  simp only [cnvEfuseState, returns_bind, returns_look, returns_failIf, returns_modify]
  exact ⟨_, _, ⟨rfl, rfl⟩, (), _, ⟨by simp [h], rfl⟩, (), _, ⟨by simp [h], rfl⟩, (), _,
    ⟨by simp, rfl⟩, (), _, ⟨by simp, rfl⟩, rfl⟩

/-- **An entry point whose work ends well leaves the state clean**, and so does one that is
refused. -/
theorem exclusive_clean {body : M α} (h : Clean s) (hframe : Frames cmd body)
    (hbody : s.efuseState.procStatus ≠ .sending → ∃ a t, Returns body (busy s) a t) :
    Clean (exec (exclusive body) s).2 := by
  have hready := exec_checkReady h.idle
  unfold exclusive
  by_cases hsending : s.efuseState.procStatus = .sending
  · rw [if_pos hsending] at hready
    rw [exec_bind_of_error hready]
    exact h
  · rw [if_neg hsending] at hready
    obtain ⟨a, t, hret⟩ := hbody hsending
    have hcmd := hframe.of_returns hret
    have hbusy : t.efuseState = (busy s).efuseState := congrArg Prod.fst hcmd
    have hrest := congrArg Prod.snd hcmd
    have hidle := returns_cnvIdle (s := t) (by rw [hbusy]; rfl)
    rw [exec_bind_of_returns hready, exec_bind_of_returns (returns_cnvBusy h.idle),
      exec_bind_of_returns hret, exec_bind_of_returns hidle, exec_pure]
    refine h.of_cmd (Prod.ext ?_ hrest)
    show { t.efuseState with cmdCnstrState := CmdCnstr.idle } = s.efuseState
    rw [hbusy, ← h.idle]
    rfl

/-- A check of the arguments in front. -/
theorem failIf_clean {c : Prop} [Decidable c] {e : RetStatus} {m : M α} (h : Clean s)
    (hm : ¬ c → Clean (exec m s).2) : Clean (exec (failIf c e >>= fun _ => m) s).2 := by
  by_cases hc : c
  · rw [exec_bind_of_error (by rw [exec_failIf, if_pos hc])]
    exact h
  · rw [exec_bind_of_returns (a := ()) (returns_failIf.mpr ⟨hc, rfl⟩)]
    exact hm hc

/-! ## Dumps -/

/-- After `reset_ofld_feature_88xx`. -/
def reset (s : Adapter) : Adapter :=
  { s with efuseState := { s.efuseState with procStatus := .idle, cmdCnstrState := .idle } }

def dumping (feature : Feature) (s : Adapter) : Adapter :=
  { s with
    efuseState := { s.efuseState with procStatus := .sending, cmdCnstrState := .busy }
    evnt := s.evnt.set feature true }

theorem exec_expectOrReset {e : RetStatus} :
    exec (expectOrReset e) s =
      if s.answers 0 = true then (.ok (), { s with answers := fun n => s.answers (n + 1) })
      else (.error e, reset { s with answers := fun n => s.answers (n + 1) }) := by
  unfold expectOrReset onlyIf failIf
  rcases h : s.answers 0 with _ | _
  · simp only [exec_bind, exec_look, exec_modify, h, resetOfldFeature]
    rfl
  · simp only [exec_bind, exec_look, exec_modify, h]
    rfl

theorem expectOrReset_cases (e : RetStatus) (s : Adapter) :
    Returns (expectOrReset e) s () { s with answers := fun n => s.answers (n + 1) } ∨
      exec (expectOrReset e) s =
        (.error e, reset { s with answers := fun n => s.answers (n + 1) }) := by
  unfold Returns
  rw [exec_expectOrReset]
  split
  · exact .inl rfl
  · exact .inr rfl

theorem exec_allocEfuseMap_fails (hnull : s.efuseMapNull = true) (hfail : s.answers 0 = false) :
    exec allocEfuseMap s =
      (.error .mallocFail, reset { s with answers := fun n => s.answers (n + 1) }) := by
  unfold allocEfuseMap onlyIf
  rw [exec_bind, exec_look]
  dsimp only
  rw [if_pos hnull, exec_bind, exec_expectOrReset, if_neg (by rw [hfail]; decide)]

theorem allocEfuseMap_passes (h : ¬ (s.efuseMapNull = true ∧ s.answers 0 = false)) :
    ∃ a null, Returns allocEfuseMap s () { s with answers := a, efuseMapNull := null } ∧
      (Answering s → ∀ n, a n = true) := by
  simp only [allocEfuseMap, returns_bind, returns_look, returns_onlyIf, returns_modify]
  by_cases hnull : s.efuseMapNull = true
  · have hok : s.answers 0 = true := by
      rcases hanswer : s.answers 0 with _ | _
      · exact absurd ⟨hnull, hanswer⟩ h
      · rfl
    have hexpect : Returns (expectOrReset .mallocFail) s ()
        { s with answers := fun n => s.answers (n + 1) } := by
      unfold Returns
      rw [exec_expectOrReset, if_pos hok]
    exact ⟨fun n => s.answers (n + 1), false, ⟨_, _, ⟨rfl, rfl⟩, .inl ⟨hnull, (), _, hexpect, rfl⟩⟩,
      fun hs n => hs (n + 1)⟩
  · exact ⟨s.answers, s.efuseMapNull, ⟨_, _, ⟨rfl, rfl⟩, .inr ⟨hnull, rfl⟩⟩, fun hs => hs⟩

theorem dumpEfuseDrv_succeeds (h : Answering s) :
    ∃ a null, Returns dumpEfuseDrv s () { s with
      answers := a, efuseMapNull := null, efuseMap := currentMap s, efuseMapValid := true } ∧
      ∀ n, a n = true := by
  obtain ⟨a, null, halloc, ha⟩ :=
    allocEfuseMap_passes (s := s) fun hfail => by simpa [hfail.2] using h 0
  have ha := ha h
  simp only [dumpEfuseDrv, returns_bind, returns_look, returns_onlyIf, returns_modify]
  unfold currentMap
  by_cases hvalid : s.efuseMapValid = true
  · rw [if_pos hvalid]
    refine ⟨a, null, ⟨(), _, halloc, _, _, ⟨rfl, rfl⟩, .inr ⟨by simp [hvalid], ?_⟩⟩, ha⟩
    rw [← hvalid]
  · rw [if_neg hvalid]
    have ha' : Answering { s with answers := fun n => a (n + 1), efuseMapNull := null } :=
      fun n => ha (n + 1)
    obtain ⟨map, a', hread, hgood⟩ := readHwEfuse_succeeds ha' 0 efuseSize
    obtain ⟨-, hcells⟩ := readHwEfuse_returns hread
    have hcopy : copyMap map s.efuseMap = physMap s := by
      funext n
      unfold physMap copyMap
      split
      · rename_i hn
        rw [hcells n hn, Nat.zero_add]
      · rfl
    refine ⟨a', null, ⟨(), _, halloc, _, _, ⟨rfl, rfl⟩, .inl ⟨by simpa using hvalid, (), _,
      expect_returns.mpr ⟨ha 0, rfl⟩, map, _, hread, ?_⟩⟩, hgood⟩
    rw [← hcopy]

def FeatureOk (feature : Feature) (btSwitch : Bool) (map : Map) : Prop :=
  match feature with
  | .dumpPhysicalEfuse => True
  | .dumpLogicalEfuse => (eepromParse btSwitch map).isSome = true
  | .dumpLogicalEfuseMask => (maskParse map).isSome = true

theorem featureMap_succeeds (feature : Feature)
    (h : FeatureOk feature s.btSwitch s.efuseMap) :
    ∃ map e, Returns (featureMap feature) s map { s with efuseEnd := e } := by
  simp only [featureMap, returns_bind, returns_look]
  rcases feature with _ | _ | _
  · exact ⟨s.efuseMap, s.efuseEnd, _, _, ⟨rfl, rfl⟩, returns_pure.mpr ⟨rfl, rfl⟩⟩
  · obtain ⟨⟨map, e⟩, hparse⟩ := Option.isSome_iff_exists.mp h
    exact ⟨map, e, _, _, ⟨rfl, rfl⟩, eepromParser_returns.mpr ⟨e, hparse, rfl⟩⟩
  · obtain ⟨⟨map, e⟩, hparse⟩ := Option.isSome_iff_exists.mp h
    exact ⟨map, e, _, _, ⟨rfl, rfl⟩, eepromMaskParser_returns.mpr ⟨e, hparse, rfl⟩⟩

theorem passMap_succeeds {feature : Feature} (h : s.answers 0 = true)
    (hfeature : FeatureOk feature s.btSwitch s.efuseMap) :
    ∃ t, Returns (passMap feature) s () t ∧
      cmd t = ({ s.efuseState with procStatus := .done }, s.fwDump, s.efuseC2hPart) := by
  obtain ⟨map, e, hmap⟩ := featureMap_succeeds (s := { s with
    efuseState := { s.efuseState with procStatus := .done }
    answers := fun n => s.answers (n + 1) }) feature hfeature
  simp only [passMap, setProcStatus, signal, returns_bind, returns_modify, expect_returns]
  exact ⟨_, ⟨⟨⟩, _, rfl, (), _, ⟨h, rfl⟩, map, _, hmap, rfl⟩, rfl⟩

/-- A dump goes well after it went BUSY, or resets the state. -/
def DumpOk (feature : Feature) (cfg : ReadCfg) (s : Adapter) : Prop :=
  s.efuseMapNull = true ∧ s.answers 0 = false ∨
    UsesFw cfg s ∧ s.efuseMapValid = false ∨
    Answering s ∧ FeatureOk feature s.btSwitch (currentMap s)

theorem exec_dumpEfuse {feature : Feature} {cfg : ReadCfg} (h : Clean s)
    (hfw : ¬ (cfg = .fw ∧ ¬ fwValidate s)) (hready : s.efuseState.procStatus ≠ .sending) :
    exec (dumpEfuse feature cfg) s =
      exec ((if UsesFw cfg s then dumpEfuseFw else dumpEfuseDrv) >>= fun _ => do
        let valid ← look fun s => s.efuseMapValid
        onlyIf (valid = true) (passMap feature)
        cnvEfuseState .idle) (dumping feature s) := by
  have hcheck : Returns checkReady s () s := by
    unfold Returns
    rw [exec_checkReady h.idle, if_neg hready]
  have hproc : exec (procDumpEfuse cfg)
      { s with
        efuseState := { s.efuseState with procStatus := .idle }
        evnt := s.evnt.set feature true } =
      exec (if UsesFw cfg s then dumpEfuseFw else dumpEfuseDrv) (dumping feature s) := by
    unfold procDumpEfuse setProcStatus
    rw [exec_bind, exec_modify]
    dsimp only
    rw [exec_bind_of_returns (returns_cnvBusy (by exact h.idle)), exec_bind, exec_look]
    dsimp only
    by_cases huses : UsesFw cfg s
    · rw [if_pos huses, if_pos (by exact decide_eq_true huses)]
      rfl
    · rw [if_neg huses, if_neg (by rw [decide_eq_true_eq]; exact huses)]
      rfl
  unfold dumpEfuse setProcStatus
  rw [exec_bind, exec_look]
  dsimp only
  rw [exec_bind_of_returns (a := ()) (returns_failIf.mpr ⟨by simpa using hfw, rfl⟩),
    exec_bind_of_returns hcheck, exec_bind, exec_modify]
  dsimp only
  rw [exec_bind, exec_modify]
  dsimp only
  rw [exec_bind, hproc, exec_bind]

structure WasReset (s t : Adapter) : Prop where
  cmdCnstrState : t.efuseState.cmdCnstrState = .idle
  procStatus : t.efuseState.procStatus = .idle
  fwDump : t.fwDump = s.fwDump
  efuseC2hPart : t.efuseC2hPart = s.efuseC2hPart

structure GoesOn (s t : Adapter) : Prop where
  cmdCnstrState : t.efuseState.cmdCnstrState = s.efuseState.cmdCnstrState
  procStatus : t.efuseState.procStatus = s.efuseState.procStatus
  efuseC2hPart : t.efuseC2hPart = s.efuseC2hPart

def asking (s : Adapter) : Adapter :=
  { s with
    efuseState := { s.efuseState with seqNum := s.h2cSeqNum }
    h2cSeqNum := s.h2cSeqNum + 1 }

theorem dumpEfuseFw_cases (s : Adapter) :
    (∃ e t, exec dumpEfuseFw s = (.error e, t) ∧ WasReset s t) ∨
      (∃ t, Returns dumpEfuseFw s () t ∧ GoesOn s t ∧ t.efuseMapValid = false ∧
        t.fwDump = some .part1) ∨
      (∃ a null, Returns dumpEfuseFw s () { asking s with answers := a, efuseMapNull := null } ∧
        s.efuseMapValid = true ∧ (Answering s → ∀ n, a n = true)) := by
  have hexec : exec dumpEfuseFw s = exec (allocEfuseMap >>= fun _ => do
      let valid ← look fun s => s.efuseMapValid
      onlyIf (valid = false) do
        expectOrReset .h2cSpaceFull
        expectOrReset .sendH2cFail
        modify fun s => { s with fwDump := some .part1 }) (asking s) := by
    unfold dumpEfuseFw
    rw [exec_bind, exec_modify]
    rfl
  by_cases hfail : s.efuseMapNull = true ∧ s.answers 0 = false
  · left
    have halloc := exec_allocEfuseMap_fails (s := asking s) hfail.1 hfail.2
    rw [hexec, exec_bind_of_error halloc]
    exact ⟨_, _, rfl, rfl, rfl, rfl, rfl⟩
  · obtain ⟨a, null, halloc, ha⟩ := allocEfuseMap_passes (s := asking s) hfail
    rw [exec_bind_of_returns halloc, exec_bind, exec_look] at hexec
    dsimp only at hexec
    by_cases hvalid : s.efuseMapValid = true
    · refine .inr (.inr ⟨a, null, ?_, hvalid, ha⟩)
      unfold onlyIf at hexec
      rw [if_neg (by simp [asking, hvalid])] at hexec
      exact hexec
    · unfold onlyIf at hexec
      rw [if_pos (by simpa [asking] using hvalid)] at hexec
      rcases expectOrReset_cases .h2cSpaceFull
        { asking s with answers := a, efuseMapNull := null } with hspace | hspace
      · rw [exec_bind_of_returns hspace] at hexec
        rcases expectOrReset_cases .sendH2cFail
          { asking s with answers := fun n => a (n + 1), efuseMapNull := null } with hsend | hsend
        · rw [exec_bind_of_returns hsend, exec_modify] at hexec
          refine .inr (.inl ⟨_, hexec, ⟨rfl, rfl, rfl⟩, ?_, rfl⟩)
          simpa [asking] using hvalid
        · rw [exec_bind_of_error hsend] at hexec
          exact .inl ⟨_, _, hexec, rfl, rfl, rfl, rfl⟩
      · rw [exec_bind_of_error hspace] at hexec
        exact .inl ⟨_, _, hexec, rfl, rfl, rfl, rfl⟩

/-- **A dump that goes well, or that resets, leaves the state clean.** -/
theorem dumpEfuse_clean {feature : Feature} {cfg : ReadCfg} (h : Clean s)
    (hok : (cfg = .fw ∧ ¬ fwValidate s) ∨ s.efuseState.procStatus = .sending ∨
      DumpOk feature cfg s) : Clean (exec (dumpEfuse feature cfg) s).2 := by
  by_cases hfw : cfg = .fw ∧ ¬ fwValidate s
  · unfold dumpEfuse
    rw [exec_bind, exec_look]
    dsimp only
    rw [exec_bind_of_error (by rw [exec_failIf, if_pos (decide_eq_true hfw)])]
    exact h
  by_cases hready : s.efuseState.procStatus = .sending
  · have hcheck := exec_checkReady h.idle
    rw [if_pos hready] at hcheck
    unfold dumpEfuse
    rw [exec_bind, exec_look]
    dsimp only
    rw [exec_bind_of_returns (a := ()) (returns_failIf.mpr ⟨by simpa using hfw, rfl⟩),
      exec_bind_of_error hcheck]
    exact h
  have hok : DumpOk feature cfg s := (hok.resolve_left hfw).resolve_left hready
  have hnone : s.fwDump = none := by
    rcases hdump : s.fwDump with _ | part
    · rfl
    · exact absurd (h.dump part hdump).1 hready
  have hpart := (h.rest hnone).2
  have hreset {e : RetStatus} {t : Adapter} {m : M Unit} {k : Unit → M Unit}
      (hexec : exec m (dumping feature s) = (.error e, t)) (ht : WasReset (dumping feature s) t) :
      Clean (exec (m >>= k) (dumping feature s)).2 := by
    rw [exec_bind_of_error hexec]
    exact clean_of_rest ht.cmdCnstrState (by rw [ht.procStatus]; decide) (ht.fwDump.trans hnone)
      (ht.efuseC2hPart.trans hpart)
  -- the map is there: it is passed, and the state goes back to IDLE
  have hpass {t : Adapter} {m : M Unit} (hret : Returns m (dumping feature s) () t)
      (hvalid : t.efuseMapValid = true) (hgo : GoesOn (dumping feature s) t)
      (hdump : t.fwDump = none)
      (hanswer : t.answers 0 = true) (hfeature : FeatureOk feature t.btSwitch t.efuseMap) :
      Clean (exec (m >>= fun _ => do
        let valid ← look fun s => s.efuseMapValid
        onlyIf (valid = true) (passMap feature)
        cnvEfuseState .idle) (dumping feature s)).2 := by
    obtain ⟨t', hpass, hcmd⟩ := passMap_succeeds hanswer hfeature
    have hstate :
        t'.efuseState = { t.efuseState with procStatus := .done } := congrArg Prod.fst hcmd
    have hdump' : t'.fwDump = t.fwDump := congrArg (fun p => p.2.1) hcmd
    have hpart' : t'.efuseC2hPart = t.efuseC2hPart := congrArg (fun p => p.2.2) hcmd
    rw [exec_bind_of_returns hret, exec_bind, exec_look]
    dsimp only
    rw [exec_bind_of_returns (a := ()) (returns_onlyIf.mpr (.inl ⟨hvalid, hpass⟩)),
      returns_cnvIdle (by rw [hstate]; exact hgo.cmdCnstrState)]
    refine clean_of_rest rfl ?_ (hdump'.trans hdump) (hpart'.trans (hgo.efuseC2hPart.trans hpart))
    show t'.efuseState.procStatus ≠ _
    rw [hstate]
    exact CmdProcess.noConfusion
  rw [exec_dumpEfuse h hfw hready]
  by_cases huses : UsesFw cfg s
  · rw [if_pos huses]
    rcases dumpEfuseFw_cases (dumping feature s) with ⟨e, t, hexec, ht⟩ |
      ⟨t, hret, hgo, hvalid, hdump⟩ |
      ⟨a, null, hret, hvalid, ha⟩
    · exact hreset hexec ht
    · -- the firmware has begun: SENDING until it has reported
      rw [exec_bind_of_returns hret, exec_bind, exec_look]
      dsimp only
      rw [exec_bind_of_returns (a := ()) (returns_onlyIf.mpr (.inr ⟨by simp [hvalid], rfl⟩)),
        returns_cnvIdle hgo.cmdCnstrState]
      refine ⟨rfl, fun hnone' => ?_, fun part hsome => ?_⟩
      · exact absurd (hdump.symm.trans hnone') (Option.some_ne_none _)
      · obtain rfl := Option.some.inj (hdump.symm.trans hsome)
        exact ⟨hgo.procStatus, hgo.efuseC2hPart.trans hpart⟩
    · have hvalid : s.efuseMapValid = true := hvalid
      rcases hok with hfail | ⟨-, hinvalid⟩ | ⟨hanswers, hfeature⟩
      · -- the allocation fails, so that this case does not arise
        have halloc := exec_allocEfuseMap_fails (s := asking (dumping feature s)) hfail.1 hfail.2
        have hexec : exec dumpEfuseFw (dumping feature s) = (.error .mallocFail, reset
            { asking (dumping feature s) with answers := fun n => s.answers (n + 1) }) := by
          unfold dumpEfuseFw
          rw [exec_bind, exec_modify]
          exact exec_bind_of_error halloc
        exact hreset hexec ⟨rfl, rfl, rfl, rfl⟩
      · rw [hvalid] at hinvalid
        cases hinvalid
      · unfold currentMap at hfeature
        rw [if_pos hvalid] at hfeature
        exact hpass hret hvalid ⟨rfl, rfl, rfl⟩ hnone (ha hanswers 0) hfeature
  · rw [if_neg huses]
    rcases hok with hfail | ⟨huses', -⟩ | ⟨hanswers, hfeature⟩
    · have halloc := exec_allocEfuseMap_fails (s := dumping feature s) hfail.1 hfail.2
      have hexec : exec dumpEfuseDrv (dumping feature s) = (.error .mallocFail, reset
          { dumping feature s with answers := fun n => s.answers (n + 1) }) :=
        exec_bind_of_error halloc
      exact hreset hexec ⟨rfl, rfl, rfl, rfl⟩
    · exact absurd huses' huses
    · obtain ⟨a, null, hret, ha⟩ := dumpEfuseDrv_succeeds (s := dumping feature s) hanswers
      exact hpass hret rfl ⟨rfl, rfl, rfl⟩ hnone (ha 0) hfeature

theorem getEfuseAvailableSize_clean (h : Clean s)
    (hok : s.efuseState.procStatus = .sending ∨ DumpOk .dumpLogicalEfuse .drv s) :
    Clean (exec getEfuseAvailableSize s).2 := by
  have hdump : Clean (exec (dumpLogEfuseMap .drv) s).2 := dumpEfuse_clean h (.inr hok)
  unfold getEfuseAvailableSize
  rw [exec_bind]
  rcases hexec : exec (dumpLogEfuseMap .drv) s with ⟨e | u, t⟩
  · rwa [hexec] at hdump
  · rw [hexec] at hdump
    exact hdump

/-! ## Work that goes well -/

theorem switched_succeeds {access : M α} {a : α}
    (h : Returns access { s with btSwitch := true } a t) :
    Returns (switched access) s a { t with btSwitch := false } := by
  simp only [switched, returns_bind, returns_modify, returns_onError, returns_pure]
  exact ⟨⟨⟩, _, rfl, a, t, h, ⟨⟩, _, rfl, rfl, rfl⟩

/-- A byte is there already, or an entry for it finds room, and cells that take it. -/
def ByteOk (s : Adapter) (offset : ℕ) (value : UInt8) : Prop :=
  ∃ map e, eepromParse s.btSwitch (currentMap s) = some (map, e) ∧
    (map offset = value ∨
      (if s.btSwitch = false ∨ bt1bEntrySize ≤ offset then 4 else 3) + e < efuseSize ∧
      CellsTake s e (logEntryHdr s.btSwitch offset ++ [if offset % 2 = 0 then value
        else map (offset - 1), if offset % 2 = 0 then map (offset + 1) else value]))

/-- A word is there already, or it is aligned and an entry finds room, and cells that take it. -/
def WordOk (s : Adapter) (offset : ℕ) (value : UInt16) : Prop :=
  ∃ map e, eepromParse s.btSwitch (currentMap s) = some (map, e) ∧
    (map offset = (value &&& 0xFF).toUInt8 ∧ map (offset + 1) = ((value >>> 8) &&& 0xFF).toUInt8 ∨
      offset % 2 = 0 ∧ 4 + e < efuseSize ∧ CellsTake s e (logEntryHdr s.btSwitch offset ++
        [(value &&& 0xFF).toUInt8, ((value >>> 8) &&& 0xFF).toUInt8]))

/-- The versions agree, and the entries of the map find room, and cells that take them. -/
def MapOk (s : Adapter) (info : PgEfuseInfo) : Prop :=
  (∀ i < pgVerLen,
    info.efuseMap (info.efuseMapSize + i) = info.efuseMask (info.efuseMaskSize + i)) ∧
  ∃ map e maskMap e', eepromParse s.btSwitch (currentMap s) = some (map, e) ∧
    maskParse (currentMap s) = some (maskMap, e') ∧
    pgNum info (updatedMaskOf info map maskMap) + e' < efuseSize ∧
    CellsTake s e' (programBytes info (updatedMaskOf info map maskMap))

theorem procWriteLogEfuse_succeeds {offset : ℕ} {value : UInt8} (h : Answering s)
    (hok : ByteOk s offset value) : ∃ t, Returns (procWriteLogEfuse offset value) s () t := by
  obtain ⟨map, e, hparse, hroom⟩ := hok
  obtain ⟨a, null, hread, ha⟩ := readLogEfuseMap_succeeds (s := { s with
    answers := fun n => s.answers (n + 1) }) h.shift hparse
  simp only [procWriteLogEfuse, returns_bind, returns_onlyIf, returns_look, returns_failIf]
  by_cases hsame : map offset = value
  · exact ⟨_, (), _, expect_succeeds h _, map, _, hread, .inr ⟨not_not.mpr hsame, rfl⟩⟩
  · obtain ⟨hroom, htakes⟩ := hroom.resolve_left hsame
    obtain ⟨t, hwrite, -⟩ := writeBytes_succeeds (s := { s with
      answers := a, efuseMapNull := null, efuseMap := currentMap s, efuseMapValid := true,
      efuseEnd := e }) ha htakes
    exact ⟨t, (), _, expect_succeeds h _, map, _, hread, .inl ⟨hsame, _, _, ⟨rfl, rfl⟩, _, _,
      ⟨rfl, rfl⟩, (), _, ⟨Nat.not_le.mpr hroom, rfl⟩, hwrite⟩⟩

theorem procWriteLogEfuseWord_succeeds {offset : ℕ} {value : UInt16} (h : Answering s)
    (hok : WordOk s offset value) : ∃ t, Returns (procWriteLogEfuseWord offset value) s () t := by
  obtain ⟨map, e, hparse, hroom⟩ := hok
  obtain ⟨a, null, hread, ha⟩ := readLogEfuseMap_succeeds (s := { s with
    answers := fun n => s.answers (n + 1) }) h.shift hparse
  simp only [procWriteLogEfuseWord, returns_bind, returns_onlyIf, returns_look, returns_failIf]
  by_cases hsame : map offset = (value &&& 0xFF).toUInt8 ∧
      map (offset + 1) = ((value >>> 8) &&& 0xFF).toUInt8
  · exact ⟨_, (), _, expect_succeeds h _, map, _, hread, .inr ⟨not_not.mpr hsame, rfl⟩⟩
  · obtain ⟨haligned, hroom, htakes⟩ := hroom.resolve_left hsame
    obtain ⟨t, hwrite, -⟩ := writeBytes_succeeds (s := { s with
      answers := a, efuseMapNull := null, efuseMap := currentMap s, efuseMapValid := true,
      efuseEnd := e }) ha htakes
    exact ⟨t, (), _, expect_succeeds h _, map, _, hread, .inl ⟨hsame, _, _, ⟨rfl, rfl⟩, _, _,
      ⟨rfl, rfl⟩, (), _, ⟨not_not.mpr haligned, rfl⟩, (), _, ⟨Nat.not_le.mpr hroom, rfl⟩, hwrite⟩⟩

theorem procPgEfuseByMap_succeeds {info : PgEfuseInfo} (h : Answering s) (hok : MapOk s info) :
    ∃ t, Returns (procPgEfuseByMap info) s () t := by
  obtain ⟨hversion, map, e, maskMap, e', hparse, hmask, hroom, htakes⟩ := hok
  obtain ⟨a, null, hread, ha⟩ := readLogEfuseMap_succeeds (s := { s with
    answers := fun n => s.answers (n + 1 + 1) }) h.shift.shift hparse
  obtain ⟨t, hprogram⟩ := programEfuse_succeeds (s := { s with
    answers := fun n => a (n + 1), efuseMapNull := null, efuseMap := currentMap s,
    efuseMapValid := true, efuseEnd := e' }) (fun n => ha (n + 1)) htakes
  simp only [procPgEfuseByMap, updateEepromMask, compareVersion, checkEfuseEnough, returns_bind,
    returns_failIf, returns_look, returns_pure, eepromMaskParser_returns]
  exact ⟨t, (), _, ⟨not_not.mpr hversion, rfl⟩, (), _, expect_succeeds h _, _, _,
    ⟨(), _, expect_succeeds h.shift _, map, _, hread, (), _, expect_returns.mpr ⟨ha 0, rfl⟩, _, _,
      ⟨rfl, rfl⟩, maskMap, _, ⟨e', hmask, rfl⟩, rfl, rfl⟩, (), _,
    ⟨_, _, ⟨rfl, rfl⟩, Nat.not_le.mpr hroom, rfl⟩, hprogram⟩

/-- Nothing goes wrong after the move to BUSY. -/
def Call.Smooth (s : Adapter) : Call → Prop
  | dumpEfuseMap cfg => DumpOk .dumpPhysicalEfuse cfg s
  | dumpLogEfuseMap cfg => DumpOk .dumpLogicalEfuse cfg s
  | dumpLogEfuseMask cfg => DumpOk .dumpLogicalEfuseMask cfg s
  | getEfuseAvailableSize => DumpOk .dumpLogicalEfuse .drv s
  | dumpEfuseMapBt _ _ => Answering s
  | writeEfuseBt offset value bank =>
    offset < btEfuseSize ∧ bank ≤ bankMax ∧ bank ≠ bankWifi ∧ Answering s ∧
      CellsTake s (offset + btStartOffset) [value]
  | readEfuseBt offset bank =>
    offset < btEfuseSize ∧ bank ≤ bankMax ∧ bank ≠ bankWifi ∧ Answering s
  | readLogicalEfuse _ =>
    Answering s ∧ (eepromParse s.btSwitch (currentMap s)).isSome = true
  | writeLogEfuse offset value => Answering s ∧ ByteOk s offset value
  | writeLogEfuseWord offset value => Answering s ∧ WordOk s offset value
  | pgEfuseByMap info => Answering s ∧ MapOk s info
  | writeWifiPhyEfuse offset value => Answering s ∧ CellsTake s offset [value]
  | readWifiPhyEfuse _ _ => Answering s

def Call.Refused (s : Adapter) : Call → Prop
  | dumpEfuseMap cfg | dumpLogEfuseMap cfg | dumpLogEfuseMask cfg =>
    cfg = .fw ∧ ¬ fwValidate s ∨ s.efuseState.procStatus = .sending
  | dumpEfuseMapBt bank size =>
    btEfuseSize ≠ size ∨ (bank ≥ bankMax ∨ bank = bankWifi) ∨ s.efuseState.procStatus = .sending
  | readLogicalEfuse offset | writeLogEfuse offset _ | writeLogEfuseWord offset _ =>
    offset ≥ eepromSize ∨ s.efuseState.procStatus = .sending
  | pgEfuseByMap info =>
    (Failing.exec (checkPgInfo info) s).1 ≠ .ok () ∨ s.efuseState.procStatus = .sending
  | writeWifiPhyEfuse offset _ =>
    offset ≥ efuseSize + prtctEfuseSize ∨ s.efuseState.procStatus = .sending
  | readWifiPhyEfuse offset size =>
    (offset ≥ efuseSize + prtctEfuseSize ∨
      (offset + size) % 2 ^ 32 > efuseSize + prtctEfuseSize) ∨ s.efuseState.procStatus = .sending
  | getEfuseAvailableSize | writeEfuseBt _ _ _ | readEfuseBt _ _ =>
    s.efuseState.procStatus = .sending

/-- **The condition on a step**: a call is refused or goes well, and the last segment of a part
reaches the driver, with its sequence number and an allocation. -/
def Event.Ok (s : Adapter) : Event → Prop
  | .call c answers =>
    c.Refused { s with answers := answers } ∨ c.Smooth { s with answers := answers }
  | .segment buf lost answers =>
    s.fwDump ≠ none → buf.endSegment = true →
      lost = false ∧ buf.h2cSeq = s.efuseState.seqNum ∧ answers 0 = true
  | .ack _ _ => True

theorem frames_checkPgInfo {τ : Type} {g : Adapter → τ} (info : PgEfuseInfo) :
    Frames g (checkPgInfo info) := by
  unfold checkPgInfo
  refine Frames.bind Frames.look fun _ => ?_
  refine Frames.bind (Frames.onlyIf (Frames.bind Frames.failIf fun _ => Frames.failIf)) fun _ => ?_
  refine Frames.bind Frames.failIf fun _ => Frames.bind Frames.failIf fun _ => ?_
  exact Frames.bind Frames.failIf fun _ => Frames.failIf

theorem call_clean {c : Call} (h : Clean s) (hok : c.Refused s ∨ c.Smooth s) :
    Clean (c.exec s) := by
  cases c with
  | dumpEfuseMap cfg => exact dumpEfuse_clean h (or_assoc.mp hok)
  | dumpLogEfuseMap cfg => exact dumpEfuse_clean h (or_assoc.mp hok)
  | dumpLogEfuseMask cfg => exact dumpEfuse_clean h (or_assoc.mp hok)
  | getEfuseAvailableSize => exact getEfuseAvailableSize_clean h hok
  | dumpEfuseMapBt bank size =>
    refine failIf_clean h fun hsize => failIf_clean h fun hbank => ?_
    refine exclusive_clean h (frames_switched (frames_readHwEfuse frames_answers)) fun hready => ?_
    have hgood := hok.resolve_left (not_or.mpr ⟨hsize, not_or.mpr ⟨hbank, hready⟩⟩)
    obtain ⟨map, a, hread, -⟩ := readHwEfuse_succeeds
      (s := { busy s with btSwitch := true }) hgood btStartOffset size
    exact ⟨map, _, switched_succeeds hread⟩
  | writeEfuseBt offset value bank =>
    refine exclusive_clean h ?_ fun hready => ?_
    · exact Frames.bind (Frames.bind Frames.failIf fun _ => Frames.failIf) fun _ =>
        frames_switched frames_writeHwEfuse
    · obtain ⟨hoffset, hmax, hwifi, hgood, htakes⟩ := hok.resolve_left hready
      obtain ⟨t, hwrite, -⟩ := writeHwEfuse_succeeds
        (s := { busy s with btSwitch := true }) hgood htakes
      simp only [checkBt, returns_bind, returns_failIf]
      exact ⟨(), _, (), _, ⟨(), _, ⟨Nat.not_le.mpr hoffset, rfl⟩,
        not_or.mpr ⟨Nat.not_lt.mpr hmax, hwifi⟩, rfl⟩, switched_succeeds hwrite⟩
  | readEfuseBt offset bank =>
    refine exclusive_clean h ?_ fun hready => ?_
    · exact Frames.bind (Frames.bind Frames.failIf fun _ => Frames.failIf) fun _ =>
        Frames.bind (frames_switched (frames_readHwEfuse frames_answers)) fun _ => Frames.pure
    · obtain ⟨hoffset, hmax, hwifi, hgood⟩ := hok.resolve_left hready
      obtain ⟨map, a, hread, -⟩ := readHwEfuse_succeeds
        (s := { busy s with btSwitch := true }) hgood (offset + btStartOffset) 1
      simp only [checkBt, returns_bind, returns_failIf, returns_pure]
      exact ⟨map 0, _, (), _, ⟨(), _, ⟨Nat.not_le.mpr hoffset, rfl⟩,
        not_or.mpr ⟨Nat.not_lt.mpr hmax, hwifi⟩, rfl⟩, map, _, switched_succeeds hread, rfl, rfl⟩
  | readLogicalEfuse offset =>
    refine failIf_clean h fun hoffset => exclusive_clean h ?_ fun hready => ?_
    · exact Frames.bind (frames_expect frames_answers) fun _ =>
        Frames.bind frames_readLogEfuseMap fun _ => Frames.pure
    · obtain ⟨hgood, hparse⟩ := hok.resolve_left (not_or.mpr ⟨hoffset, hready⟩)
      obtain ⟨⟨map, e⟩, hparse⟩ := Option.isSome_iff_exists.mp hparse
      obtain ⟨a, null, hread, -⟩ := readLogEfuseMap_succeeds (s := { busy s with
        answers := fun n => s.answers (n + 1) }) hgood.shift hparse
      simp only [returns_bind, returns_pure]
      exact ⟨map offset, _, (), _, expect_succeeds (s := busy s) hgood _, map, _, hread, rfl, rfl⟩
  | writeLogEfuse offset value =>
    refine failIf_clean h fun hoffset =>
      exclusive_clean h frames_procWriteLogEfuse fun hready => ?_
    obtain ⟨hgood, hbyte⟩ := hok.resolve_left (not_or.mpr ⟨hoffset, hready⟩)
    obtain ⟨t, hwrite⟩ := procWriteLogEfuse_succeeds (s := busy s) hgood hbyte
    exact ⟨(), t, hwrite⟩
  | writeLogEfuseWord offset value =>
    refine failIf_clean h fun hoffset =>
      exclusive_clean h frames_procWriteLogEfuseWord fun hready => ?_
    obtain ⟨hgood, hword⟩ := hok.resolve_left (not_or.mpr ⟨hoffset, hready⟩)
    obtain ⟨t, hwrite⟩ := procWriteLogEfuseWord_succeeds (s := busy s) hgood hword
    exact ⟨(), t, hwrite⟩
  | pgEfuseByMap info =>
    have hframe := frames_checkPgInfo (g := id) info s
    show Clean (exec (checkPgInfo info >>= fun _ => exclusive (procPgEfuseByMap info)) s).2
    rcases hcheck : exec (checkPgInfo info) s with ⟨e | u, t⟩
    · rw [hcheck] at hframe
      obtain rfl : t = s := hframe
      rw [exec_bind_of_error hcheck]
      exact h
    · rw [hcheck] at hframe
      obtain rfl : t = s := hframe
      rw [exec_bind_of_returns hcheck]
      refine exclusive_clean h frames_procPgEfuseByMap fun hready => ?_
      obtain ⟨hgood, hmap⟩ := hok.resolve_left (not_or.mpr ⟨by simp [hcheck], hready⟩)
      obtain ⟨t', hwrite⟩ := procPgEfuseByMap_succeeds (s := busy t) hgood hmap
      exact ⟨(), t', hwrite⟩
  | writeWifiPhyEfuse offset value =>
    refine failIf_clean h fun hoffset => exclusive_clean h frames_writeHwEfuse fun hready => ?_
    obtain ⟨hgood, htakes⟩ := hok.resolve_left (not_or.mpr ⟨hoffset, hready⟩)
    obtain ⟨t, hwrite, -⟩ := writeHwEfuse_succeeds (s := busy s) hgood htakes
    exact ⟨(), t, hwrite⟩
  | readWifiPhyEfuse offset size =>
    refine failIf_clean h fun hoffset =>
      exclusive_clean h (frames_readHwEfuse frames_answers) fun hready => ?_
    have hgood := hok.resolve_left (not_or.mpr ⟨hoffset, hready⟩)
    obtain ⟨map, a, hread, -⟩ := readHwEfuse_succeeds (s := busy s) hgood offset size
    exact ⟨map, _, hread⟩

/-! ## The reports of the firmware -/

theorem frames_featureMap {τ : Type} {g : Adapter → τ} {feature : Feature}
    (h : ∀ s e, g { s with efuseEnd := e } = g s) : Frames g (featureMap feature) := by
  unfold featureMap
  refine Frames.bind Frames.look fun efuseMap => ?_
  rcases feature with _ | _ | _
  · exact Frames.pure
  · exact frames_eepromParser h
  · exact frames_eepromMaskParser h

theorem frames_signalWaiting {τ : Type} {g : Adapter → τ} {feature : Feature} {buf : M Map}
    (h : ∀ s signals evnt, g { s with signals := signals, evnt := evnt } = g s)
    (hbuf : Frames g buf) : Frames g (signalWaiting feature buf) := by
  unfold signalWaiting
  refine Frames.bind Frames.look fun waits => Frames.onlyIf ?_
  exact Frames.bind hbuf fun map => Frames.modify fun s => h s _ _

/-- The events for the three features, with their buffers. -/
theorem frames_signals {τ : Type} {g : Adapter → τ}
    (h : ∀ s signals evnt, g { s with signals := signals, evnt := evnt } = g s)
    (buf : Feature → M Map) (hbuf : ∀ feature, Frames g (buf feature)) :
    Frames g (do
      signalWaiting .dumpPhysicalEfuse (buf .dumpPhysicalEfuse)
      signalWaiting .dumpLogicalEfuse (buf .dumpLogicalEfuse)
      signalWaiting .dumpLogicalEfuseMask (buf .dumpLogicalEfuseMask)) := by
  refine Frames.bind (frames_signalWaiting h (hbuf _)) fun _ => ?_
  exact Frames.bind (frames_signalWaiting h (hbuf _)) fun _ => frames_signalWaiting h (hbuf _)

theorem finishDump_cmd (s : Adapter) :
    ∃ procStatus, procStatus ≠ .sending ∧ cmd (exec finishDump s).2 =
      ({ s.efuseState with procStatus := procStatus }, s.fwDump, s.efuseC2hPart) := by
  unfold finishDump setProcStatus
  rw [exec_bind, exec_look]
  dsimp only
  by_cases hrc : s.efuseState.fwRc = 0
  · refine ⟨.done, by decide, ?_⟩
    rw [if_pos hrc, exec_bind, exec_modify]
    dsimp only
    rw [exec_bind, exec_modify]
    dsimp only
    exact frames_signals (fun _ _ _ => rfl) featureMap (fun _ => frames_featureMap fun _ _ => rfl) _
  · refine ⟨.error, by decide, ?_⟩
    rw [if_neg hrc, exec_bind, exec_modify]
    dsimp only
    exact frames_signals (fun _ _ _ => rfl) (fun _ => pure fun _ => s.efuseState.fwRc)
      (fun _ => Frames.pure) _

theorem getEfuseData_cmd {buf : EfuseData}
    (h : buf.endSegment = false ∨ s.efuseState.procStatus ≠ .sending) :
    cmd (exec (getEfuseData buf) s).2 = cmd s := by
  by_cases hsending : s.efuseState.procStatus = .sending
  · have hend := h.resolve_right (not_not.mpr hsending)
    unfold getEfuseData
    refine Frames.bind (g := cmd) Frames.look (fun state => Frames.onlyIf ?_) s
    refine Frames.bind (Frames.onlyIf (Frames.modify fun _ => rfl)) fun _ => ?_
    refine Frames.bind (frames_expect frames_answers) fun _ => ?_
    refine Frames.bind (Frames.modify fun _ => rfl) fun _ => ?_
    unfold onlyIf
    rw [if_neg (by rw [hend]; decide)]
    exact Frames.pure
  · unfold getEfuseData onlyIf
    rw [exec_bind, exec_look]
    dsimp only
    rw [if_neg fun hseq => hsending hseq.2]
    rfl

/-- The driver waits for the segment: a dump is under way, and the segment answers its request. -/
def Awaited (buf : EfuseData) (s : Adapter) : Prop :=
  buf.h2cSeq = s.efuseState.seqNum ∧ s.efuseState.procStatus = .sending

instance decidableAwaited (buf : EfuseData) (s : Adapter) : Decidable (Awaited buf s) :=
  inferInstanceAs (Decidable (_ ∧ _))

def sized (buf : EfuseData) (s : Adapter) : Adapter :=
  { s with efuseSegSize := if buf.segmentId = 0 then buf.segmentSize else s.efuseSegSize }

theorem exec_getEfuseData_ignored (h : ¬Awaited buf s) :
    exec (getEfuseData buf) s = (.ok (), s) := by
  unfold Awaited at h
  unfold getEfuseData onlyIf
  rw [exec_bind, exec_look]
  dsimp only
  rw [if_neg h]
  rfl

theorem returns_sized (buf : EfuseData) (s : Adapter) :
    Returns (onlyIf (buf.segmentId = 0) (modify fun s : Adapter =>
      { s with efuseSegSize := buf.segmentSize }) : M Unit) s () (sized buf s) := by
  unfold sized
  refine returns_onlyIf.mpr ?_
  split
  · next hzero => exact .inl ⟨hzero, returns_modify.mpr rfl⟩
  · next hzero => exact .inr ⟨hzero, rfl⟩

theorem exec_getEfuseData_noMemory (h : Awaited buf s) (hmalloc : s.answers 0 = false) :
    (exec (getEfuseData buf) s).2 = { sized buf s with answers := fun n => s.answers (n + 1) } := by
  have hexpect : Fails (expect .mallocFail) (sized buf s) .mallocFail
      { sized buf s with answers := fun n => s.answers (n + 1) } :=
    expect_fails.mpr ⟨hmalloc, rfl, rfl⟩
  unfold Awaited at h
  unfold getEfuseData
  rw [exec_bind, exec_look]
  dsimp only
  rw [onlyIf, if_pos h, exec_bind_of_returns (returns_sized buf s), exec_bind_of_error hexpect]

/-- **A segment that is awaited and can be taken**: the copy, and what its end flag does. -/
theorem exec_getEfuseData_awaited (h : Awaited buf s) (hmalloc : s.answers 0 = true) :
    ∃ t : Adapter, cmd t = cmd s ∧ t.efuseMap = storeSegment buf (sized buf s) ∧
      (exec (getEfuseData buf) s).2 =
        if buf.endSegment = true then
          match s.efuseC2hPart with
          | .part1 => { t with efuseC2hPart := .part2 }
          | .part2 => (exec finishDump { t with efuseC2hPart := .part1 }).2
        else t := by
  have hexpect : Returns (expect .mallocFail) (sized buf s) ()
      { sized buf s with answers := fun n => s.answers (n + 1) } :=
    expect_returns.mpr ⟨hmalloc, rfl⟩
  refine ⟨{ sized buf s with
    answers := fun n => s.answers (n + 1)
    efuseMap := storeSegment buf (sized buf s) }, rfl, rfl, ?_⟩
  unfold Awaited at h
  unfold getEfuseData
  rw [exec_bind, exec_look]
  dsimp only
  rw [onlyIf, if_pos h, exec_bind_of_returns (returns_sized buf s), exec_bind_of_returns hexpect,
    exec_bind, exec_modify]
  dsimp only
  have hstore : storeSegment buf { sized buf s with answers := fun n => s.answers (n + 1) } =
      storeSegment buf (sized buf s) := rfl
  rw [hstore]
  unfold onlyIf
  split
  · rw [exec_bind, exec_look]
    dsimp only
    change (exec (ite ((sized buf s).efuseC2hPart = .part1) _ _) _).2 =
      match (sized buf s).efuseC2hPart with
        | .part1 => _
        | .part2 => _
    cases (sized buf s).efuseC2hPart with
    | part1 => rfl
    | part2 => rfl
  · rfl

theorem getEfuseData_end (buf : EfuseData) (hseq : buf.h2cSeq = s.efuseState.seqNum)
    (hsending : s.efuseState.procStatus = .sending) (hend : buf.endSegment = true)
    (hanswer : s.answers 0 = true) :
    ∃ t : Adapter, cmd t = cmd s ∧ (exec (getEfuseData buf) s).2 =
      match s.efuseC2hPart with
      | .part1 => { t with efuseC2hPart := .part2 }
      | .part2 => (exec finishDump { t with efuseC2hPart := .part1 }).2 := by
  obtain ⟨t, hcmd, -, hexec⟩ := exec_getEfuseData_awaited ⟨hseq, hsending⟩ hanswer
  rw [if_pos hend] at hexec
  exact ⟨t, hcmd, hexec⟩

/-- **A segment leaves the state clean**, the last of a part if it arrives and is taken. -/
theorem segment_clean {buf : EfuseData} {lost : Bool} {a : ℕ → Bool} (h : Clean s)
    (hok : s.fwDump ≠ none → buf.endSegment = true →
      lost = false ∧ buf.h2cSeq = s.efuseState.seqNum ∧ a 0 = true)
    (hstep : step s (.segment buf lost a) = some s') : Clean s' := by
  have hnext : buf.endSegment = false ∨ s.fwDump = none →
      fwNext s.fwDump buf.endSegment = s.fwDump := by
    rintro (hend | hnone)
    · rw [hend]
      rcases s.fwDump with _ | part
      · rfl
      · rcases part with _ | _ <;> rfl
    · rw [hnone]
      rfl
  by_cases hkeep : buf.endSegment = false ∨ s.fwDump = none
  · refine h.of_cmd ?_
    have harrive :
        cmd { s with answers := a, fwDump := fwNext s.fwDump buf.endSegment } = cmd s := by
      rw [hnext hkeep]
      rfl
    have hquiet : buf.endSegment = false ∨ s.efuseState.procStatus ≠ .sending :=
      hkeep.imp id fun hnone => (h.rest hnone).1
    rcases lost with _ | _
    · obtain rfl := Option.some.inj hstep
      refine (getEfuseData_cmd ?_).trans harrive
      exact hquiet
    · obtain rfl := Option.some.inj hstep
      exact harrive
  · obtain ⟨hend, hsome⟩ := not_or.mp hkeep
    have hend : buf.endSegment = true := by simpa using hend
    obtain ⟨rfl, hseq, hanswer⟩ := hok hsome hend
    obtain ⟨part, hpart⟩ := Option.ne_none_iff_exists'.mp hsome
    obtain ⟨hsending, hc2h⟩ := h.dump part hpart
    obtain ⟨t, hcmd, hexec⟩ := getEfuseData_end
      (s := { s with answers := a, fwDump := fwNext s.fwDump buf.endSegment }) buf hseq hsending
      hend hanswer
    have hstate : t.efuseState = s.efuseState := congrArg Prod.fst hcmd
    have hdump : t.fwDump = fwNext s.fwDump true := by
      rw [← hend]
      exact congrArg (fun p => p.2.1) hcmd
    obtain rfl := Option.some.inj hstep
    show Clean (exec (getEfuseData buf) _).2
    rw [hexec]
    rcases part with _ | _
    · -- the first part has come, the second is to follow
      show Clean (match s.efuseC2hPart with
        | .part1 => { t with efuseC2hPart := .part2 }
        | .part2 => (exec finishDump { t with efuseC2hPart := .part1 }).2)
      rw [hc2h]
      refine ⟨by rw [← h.idle, ← hstate], fun hnone => ?_, fun part hsome => ?_⟩
      · rw [hpart] at hdump
        exact absurd (hdump.symm.trans hnone) (Option.some_ne_none _)
      · rw [hpart] at hdump
        obtain rfl := Option.some.inj (hdump.symm.trans hsome)
        exact ⟨by rw [← hsending, ← hstate], rfl⟩
    · -- the dump is over
      show Clean (match s.efuseC2hPart with
        | .part1 => { t with efuseC2hPart := .part2 }
        | .part2 => (exec finishDump { t with efuseC2hPart := .part1 }).2)
      rw [hc2h]
      obtain ⟨procStatus, hstatus, hfinish⟩ := finishDump_cmd { t with efuseC2hPart := .part1 }
      rw [hpart] at hdump
      have hstate' := congrArg Prod.fst hfinish
      have hdump' := congrArg (fun p => p.2.1) hfinish
      have hpart' := congrArg (fun p => p.2.2) hfinish
      refine clean_of_rest ?_ ?_ (hdump'.trans hdump) hpart'
      · refine (congrArg EfuseState.cmdCnstrState hstate').trans ?_
        rw [← h.idle, ← hstate]
      · refine ne_of_eq_of_ne (congrArg EfuseState.procStatus hstate') hstatus

/-- **A step that meets the condition keeps the state clean.** -/
theorem step_clean {e : Event} (h : Clean s) (hok : e.Ok s) (hstep : step s e = some s') :
    Clean s' := by
  cases e with
  | call c answers =>
    obtain rfl := Option.some.inj hstep
    exact call_clean (h.of_cmd (t := { s with answers := answers }) rfl) hok
  | segment buf lost answers => exact segment_clean h hok hstep
  | ack h2cSeq fwRc =>
    obtain rfl := Option.some.inj hstep
    unfold getH2cAckPhyEfuse onlyIf
    rw [exec_bind, exec_look]
    dsimp only
    split
    · exact ⟨h.idle, h.rest, h.dump⟩
    · exact h

/-- **The command state recovers along every run whose calls do not fail after they went BUSY and
whose last segments arrive.** -/
theorem recovered_of_run {es : List Event} (hs : Started s)
    (hok : Meets step (fun s e => e.Ok s) s es)
    (hrun : run step s es = some s') : Recovered s' := by
  have hclean : Clean s' :=
    run_invariant_of_meets (fun _ _ _ h hok hstep => step_clean h hok hstep) hs.clean hok hrun
  exact hclean.recovered

/-- After initialisation, with cells whose bits can only be cleared, and writes that are checked. -/
def freshAdapter : Adapter where
  cells := blank
  burn _ old value := old &&& value
  efuseAutoCheckEn := true
  dlfwState := .done

theorem started_freshAdapter : Started freshAdapter := ⟨rfl, rfl, rfl, rfl⟩

def lastSegment : EfuseData where
  h2cSeq := 0
  segmentId := 0
  segmentSize := 0
  endSegment := true
  data := blank

def dumpAndWrite : List Event :=
  [.call (.dumpEfuseMap .fw) fun _ => true, .segment lastSegment false fun _ => true,
    .segment lastSegment false fun _ => true, .call (.writeEfuseBt 5 0x12 1) fun _ => true]

theorem recovered_dumpAndWrite :
    ∃ s', run step freshAdapter dumpAndWrite = some s' ∧ Recovered s' := by
  have hok : Meets step (fun s e => Event.Ok s e) freshAdapter dumpAndWrite := by
    refine ⟨.inr (.inr (.inl ⟨.inl rfl, rfl⟩)), fun s₁ h₁ => ?_⟩
    obtain rfl := Option.some.inj h₁
    refine ⟨fun _ _ => ⟨rfl, rfl, rfl⟩, fun s₂ h₂ => ?_⟩
    obtain rfl := Option.some.inj h₂
    refine ⟨fun _ _ => ⟨rfl, rfl, rfl⟩, fun s₃ h₃ => ?_⟩
    obtain rfl := Option.some.inj h₃
    refine ⟨.inr ⟨by decide, by decide, by decide, fun _ => rfl, fun _ p hp => ?_⟩,
      fun s₄ h₄ => trivial⟩
    obtain rfl := List.mem_singleton.mp hp
    rfl
  exact ⟨_, rfl, recovered_of_run started_freshAdapter hok rfl⟩

/-- A write to the BT efuse that names the bank of the WiFi efuse is refused after the move to
BUSY. -/
theorem not_recovered_badBank :
    ¬ ∀ s es s', Started s → run step s es = some s' → Recovered s' := by
  intro h
  have hrecovered := h freshAdapter [.call (.writeEfuseBt 0 0 bankWifi) fun _ => true] _
    started_freshAdapter rfl
  exact absurd (hrecovered rfl).1 (by decide)

end Rtl88x2eu.Efuse
