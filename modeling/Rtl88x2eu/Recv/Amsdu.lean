import Rtl88x2eu.Lib.Loop
import Rtl88x2eu.Recv.Indicate

/-!
# Splitting A-MSDUs

`amsdu_to_msdu` walks over the payload with a pointer, a remaining length and a number of collected
packets. The walk is followed here pass by pass, with every read of the payload, and compared with
the grammar of A-MSDUs.

The driver's other parts may answer differently for each subframe, so that the environment depends
on where the subframe starts.

## Main definitions

* `Options`
* `Subframe`, `subframeAt`: a subframe, as the header at `pdata` describes it
* `Walk`, `pass`, `walk`: the state of `amsdu_to_msdu`, one pass of its loop, the loop
* `Splits`, `collect`, `Right`

## Main results

* `walk_eq_collect`: the walk follows the grammar
* `right_iff`: splitting is right exactly if no queue is selected by an octet behind the payload
* `amsduToMsdu_eq_walk`: the walk is that of `amsduToMsdu`
-/

namespace Rtl88x2eu.Amsdu

/-! ## The checks of a subframe -/

/-- The parts of the build that refuse subframes; they are off unless it says otherwise. -/
structure Options where
  /-- `rtw_rx_wds_gptr_check`, with `CONFIG_RTW_WDS` and an adapter that uses it. -/
  wdsGptrCheck : MacAddr → Bool := fun _ => false
  /-- `rtw_wapi_check_for_drop`, with `CONFIG_WAPI_SUPPORT`. -/
  wapiCheckForDrop : Bytes → Bool := fun _ => false

variable (env : ℕ → Env) (o : Options) (a : Adapter) (f : RecvFrame) (p : Bytes)

def rtwStaRxAmsduActCheck (da sa : MacAddr) : MsduAct :=
  if da.isMcast && o.wdsGptrCheck sa then {} else ⟨true, false⟩

def rtwRecvIndicatepktCheck (pkt : Bytes) : Bool := !o.wapiCheckForDrop pkt

structure Subframe where
  pdata : ℕ
  subframeLength : ℕ
  da : MacAddr
  sa : MacAddr
  msdu : Bytes
deriving DecidableEq, Repr

def subframeAt (pdata : ℕ) : Subframe where
  pdata := pdata
  subframeLength := p.be16 (pdata + 12)
  da := p.mac pdata
  sa := p.mac (pdata + ethAlen)
  msdu := (p.drop (pdata + ethHlen)).take (p.be16 (pdata + 12))

def Subframe.size (s : Subframe) : ℕ := (ethHlen + s.subframeLength + 3) / 4 * 4

def rxMsduActCheck (s : Subframe) : MsduAct :=
  if a.fwState.ap then rtwApRxMsduActCheck (env s.pdata) a s.da s.sa
  else if a.fwState.station then rtwStaRxAmsduActCheck o s.da s.sa
  else ⟨true, false⟩

/-- `rtw_ap_rx_msdu_act_check` comes to `rtw_os_recv_select_queue`. -/
def selectsQueue (da sa : MacAddr) : Bool :=
  sa ≠ a.macAddr && (da.isMcast || da ≠ a.macAddr) && !a.apIsolate && 1 < a.asocListCnt

structure Read where
  start : ℕ
  len : ℕ
deriving DecidableEq, Repr

def rtwRecvLlcParseReads (msdu msduLen : ℕ) : List Read :=
  if 8 ≤ msduLen then [⟨msdu + snapSize, 2⟩, ⟨msdu, snapSize⟩] else []

/-- The reads of `rtw_os_recv_select_queue`: the EtherType, and `tos` of an IPv4 header. -/
def rtwOsRecvSelectQueueReads (msdu : ℕ) (llcHdl : Bool) : List Read :=
  if llcHdl then
    ⟨msdu + snapSize, 2⟩ ::
      (if p.be16 (msdu + snapSize) = 0x0800 then [⟨msdu + snapSize + 2 + 1, 1⟩] else [])
  else []

def checkReads (s : Subframe) : List Read :=
  rtwRecvLlcParseReads (s.pdata + ethHlen) s.subframeLength ++
    if a.fwState.ap ∧ selectsQueue a s.da s.sa then
      rtwOsRecvSelectQueueReads p (s.pdata + ethHlen)
        (rtwRecvLlcParse (p.drop (s.pdata + ethHlen)) s.subframeLength)
    else []

/-! ## The loop -/

/-- The variables of `amsdu_to_msdu`. `pdata` counts from the start of the payload. -/
structure Walk where
  pdata : ℕ
  aLen : ℕ
  acc : Subframes := {}
  reads : List Read := []

def Walk.note (w : Walk) (rs : List Read) : Walk := { w with reads := w.reads ++ rs }

def moveToNext (subframeLength : ℕ) (w : Walk) : Walk ⊕ Walk :=
  if maxSubframeCount ≤ w.acc.subframes.length then
    .inr { w with pdata := w.pdata + ethHlen, aLen := w.aLen - ethHlen }
  else
    let w := { w with
      pdata := w.pdata + ethHlen + subframeLength
      aLen := w.aLen - ethHlen - subframeLength }
    let padding := (4 - (subframeLength + ethHlen) % 4) % 4
    if w.aLen = 0 then .inl w
    else if w.aLen < padding then .inr w
    else .inl { w with pdata := w.pdata + padding, aLen := w.aLen - padding }

def keep (s : Subframe) (act : MsduAct) (pkt : Bytes) (acc : Subframes) : Subframes where
  forwarded := acc.forwarded ++
    if act.forward then recvFwdPktHdl (env s.pdata) a f act pkt else []
  subframes :=
    if act.indicate && rtwRecvIndicatepktCheck o pkt then acc.subframes ++ [pkt]
    else acc.subframes

/-- The body of the loop, behind `validate_amsdu_content`. -/
def handle (s : Subframe) (w : Walk) : Walk ⊕ Walk :=
  let llcHdl := rtwRecvLlcParse (p.drop (s.pdata + ethHlen)) s.subframeLength
  let act := rxMsduActCheck env o a s
  let w := w.note (checkReads a p s)
  if act = {} then moveToNext s.subframeLength w
  else if !(env s.pdata).allocMsduPkt a f w.acc.subframes.length then .inr w
  else
    let w := w.note [⟨s.pdata + ethHlen, s.subframeLength⟩]
    moveToNext s.subframeLength
      { w with acc := keep env o a f s act (msduPkt s.da s.sa s.msdu llcHdl) w.acc }

def pass (w : Walk) : Walk ⊕ Walk :=
  if w.aLen ≤ ethHlen then .inr w
  else
    let s := subframeAt p w.pdata
    let w := w.note [⟨w.pdata + 12, 2⟩]
    if w.aLen < ethHlen + s.subframeLength then .inr w
    else
      -- the two addresses are read by the checks
      let w := w.note [⟨w.pdata, ethAlen⟩, ⟨w.pdata + ethAlen, ethAlen⟩]
      if !validateAmsduContent a f.attrib s.da s.sa then .inr w
      else handle env o a f p s w

def walk : Option Walk :=
  Loop.iterate (pass env o a f p) (p.length / ethHlen + 1) { pdata := 0, aLen := p.length }

def Subframe.ethernet (s : Subframe) : Bytes :=
  msduPkt s.da s.sa s.msdu (rtwRecvLlcParse s.msdu s.msdu.length)

/-- The subframes of the payload from an offset on. `content` is the check of the addresses that
ends the splitting. -/
inductive Splits (content : MacAddr → MacAddr → Bool) (p : Bytes) : ℕ → List Subframe → Prop
  /-- At most fourteen octets are left. -/
  | short {pos : ℕ} : p.length ≤ pos + ethHlen → Splits content p pos []
  | malformed {pos : ℕ} : pos + ethHlen < p.length →
      p.length < pos + ethHlen + (subframeAt p pos).subframeLength → Splits content p pos []
  | refused {pos : ℕ} : pos + ethHlen < p.length →
      pos + ethHlen + (subframeAt p pos).subframeLength ≤ p.length →
      content (subframeAt p pos).da (subframeAt p pos).sa = false → Splits content p pos []
  | subframe {pos : ℕ} {ss : List Subframe} : pos + ethHlen < p.length →
      pos + ethHlen + (subframeAt p pos).subframeLength ≤ p.length →
      content (subframeAt p pos).da (subframeAt p pos).sa →
      Splits content p (pos + (subframeAt p pos).size) ss →
      Splits content p pos (subframeAt p pos :: ss)

variable {env o a f p} {content : MacAddr → MacAddr → Bool} {pos n : ℕ} {s : Subframe}
  {ss ss' : List Subframe} {w w' : Walk} {acc acc' : Subframes}

theorem le_size (s : Subframe) : ethHlen + s.subframeLength ≤ s.size := by
  unfold Subframe.size
  omega

theorem Splits.eq_nil (h : Splits content p pos ss) (hpos : p.length ≤ pos + ethHlen) :
    ss = [] := by
  cases h with
  | short => rfl
  | malformed => rfl
  | refused => rfl
  | subframe hlt => omega

/-- The grammar leaves no choice. -/
theorem Splits.unique (h : Splits content p pos ss) (h' : Splits content p pos ss') :
    ss = ss' := by
  induction h generalizing ss' with
  | short hle => exact (h'.eq_nil hle).symm
  | malformed hlt hlen =>
    cases h' with
    | subframe _ hle => omega
    | _ => rfl
  | refused _ _ hc =>
    cases h' with
    | subframe _ _ hc' => rw [hc] at hc'; cases hc'
    | _ => rfl
  | subframe hlt hle hc _ ih =>
    cases h' with
    | short => omega
    | malformed => omega
    | refused _ _ hc' => rw [hc] at hc'; cases hc'
    | subframe _ _ _ hs => rw [ih hs]

theorem Splits.exists (content : MacAddr → MacAddr → Bool) (p : Bytes) (pos : ℕ) :
    ∃ ss, Splits content p pos ss := by
  induction hk : p.length - pos using Nat.strong_induction_on generalizing pos with
  | _ k ih =>
    rcases Nat.lt_or_ge (pos + ethHlen) p.length with hlt | hle
    · rcases Nat.lt_or_ge p.length (pos + ethHlen + (subframeAt p pos).subframeLength)
        with hlen | hlen
      · exact ⟨[], .malformed hlt hlen⟩
      · cases hc : content (subframeAt p pos).da (subframeAt p pos).sa with
        | false => exact ⟨[], .refused hlt hlen hc⟩
        | true =>
          have hsize := le_size (subframeAt p pos)
          have hpos : 0 < ethHlen := by decide
          obtain ⟨ss, hss⟩ := ih _ (by omega) (pos + (subframeAt p pos).size) rfl
          exact ⟨_, .subframe hlt hlen hc hss⟩
    · exact ⟨[], .short hle⟩

variable (env o a f)

/-- A subframe is left out, or its packet is kept; `none` when there is no memory for it. -/
def settle (s : Subframe) (acc : Subframes) : Option Subframes :=
  if rxMsduActCheck env o a s = {} then some acc
  else if (env s.pdata).allocMsduPkt a f acc.subframes.length then
    some (keep env o a f s (rxMsduActCheck env o a s) s.ethernet acc)
  else none

/-- What is looked at and what is kept of the subframes. -/
def collect : List Subframe → Subframes → List Subframe × Subframes
  | [], acc => ([], acc)
  | s :: ss, acc =>
    match settle env o a f s acc with
    | none => ([s], acc)
    | some acc' =>
      if maxSubframeCount ≤ acc'.subframes.length then ([s], acc')
      else (s :: (collect ss acc').1, (collect ss acc').2)

def QueueFits (a : Adapter) (p : Bytes) (s : Subframe) : Prop :=
  a.fwState.ap → selectsQueue a s.da s.sa → rtwRecvLlcParse s.msdu s.msdu.length →
    s.msdu.be16 snapSize = 0x0800 → s.pdata + ethHlen + 10 ≤ p.length

variable {env o a f}

/-! ## One pass -/

def Read.Inside (p : Bytes) (r : Read) : Prop := r.start + r.len ≤ p.length

theorem rtwRecvLlcParse_take (q : Bytes) (n : ℕ) :
    rtwRecvLlcParse (q.take n) n = rtwRecvLlcParse q n := by
  unfold rtwRecvLlcParse
  rcases Nat.lt_or_ge n 8 with hlt | hle
  · rw [decide_eq_false (by omega), Bool.false_and, Bool.false_and]
  · have hu8 : ∀ i, i < 8 → Bytes.u8 (q.take n) i = q.u8 i := fun i hi => u8_take (by omega)
    have hbe : Bytes.be16 (q.take n) snapSize = q.be16 snapSize := by
      rw [Bytes.be16, Bytes.be16, hu8 _ (by decide), hu8 _ (by decide)]
    have hmac : Bytes.mac (q.take n) 0 = q.mac 0 := by
      simp only [Bytes.mac]
      rw [hu8 0 (by decide), hu8 (0 + 1) (by decide), hu8 (0 + 2) (by decide),
        hu8 (0 + 3) (by decide), hu8 (0 + 4) (by decide), hu8 (0 + 5) (by decide)]
    rw [hbe, hmac]

theorem length_msdu (hle : pos + ethHlen + (subframeAt p pos).subframeLength ≤ p.length) :
    (subframeAt p pos).msdu.length = (subframeAt p pos).subframeLength := by
  have hdrop : (p.drop (pos + ethHlen)).length = p.length - (pos + ethHlen) := List.length_drop
  show ((p.drop (pos + ethHlen)).take (subframeAt p pos).subframeLength).length = _
  rw [List.length_take, hdrop]
  omega

theorem llcHdl_eq (hle : pos + ethHlen + (subframeAt p pos).subframeLength ≤ p.length) :
    rtwRecvLlcParse (p.drop (pos + ethHlen)) (subframeAt p pos).subframeLength =
      rtwRecvLlcParse (subframeAt p pos).msdu (subframeAt p pos).msdu.length := by
  rw [length_msdu hle]
  exact (rtwRecvLlcParse_take _ _).symm

theorem inside_rtwRecvLlcParseReads {msdu msduLen : ℕ} (hle : msdu + msduLen ≤ p.length) :
    ∀ r ∈ rtwRecvLlcParseReads msdu msduLen, r.Inside p := by
  have hsnap : snapSize = 6 := rfl
  intro r hr
  unfold rtwRecvLlcParseReads at hr
  split at hr
  · rcases List.mem_cons.mp hr with rfl | hr
    · show msdu + snapSize + 2 ≤ p.length
      omega
    · obtain rfl := List.mem_singleton.mp hr
      show msdu + snapSize ≤ p.length
      omega
  · cases hr

theorem inside_rtwOsRecvSelectQueueReads
    (hle : pos + ethHlen + (subframeAt p pos).subframeLength ≤ p.length) :
    (∀ r ∈ rtwOsRecvSelectQueueReads p (pos + ethHlen)
        (rtwRecvLlcParse (p.drop (pos + ethHlen)) (subframeAt p pos).subframeLength),
      r.Inside p) ↔
      (rtwRecvLlcParse (subframeAt p pos).msdu (subframeAt p pos).msdu.length →
        (subframeAt p pos).msdu.be16 snapSize = 0x0800 → pos + ethHlen + 10 ≤ p.length) := by
  have hsnap : snapSize = 6 := rfl
  rw [llcHdl_eq hle]
  unfold rtwOsRecvSelectQueueReads
  cases hllc : rtwRecvLlcParse (subframeAt p pos).msdu (subframeAt p pos).msdu.length with
  | false => simp
  | true =>
    have hlen : 8 ≤ (subframeAt p pos).subframeLength := by
      rw [length_msdu hle] at hllc
      unfold rtwRecvLlcParse at hllc
      exact of_decide_eq_true (Bool.and_eq_true_iff.mp hllc).1
    have htype : (subframeAt p pos).msdu.be16 snapSize = p.be16 (pos + ethHlen + snapSize) := by
      have hu8 : ∀ i, i < 8 → (subframeAt p pos).msdu.u8 i = p.u8 (pos + ethHlen + i) := by
        intro i hi
        rw [← Bytes.u8_drop]
        exact u8_take (Nat.lt_of_lt_of_le hi hlen)
      rw [Bytes.be16, Bytes.be16, hu8 _ (by decide), hu8 _ (by decide)]
      rfl
    rw [if_pos rfl, htype, List.forall_mem_cons]
    have hfirst : Read.Inside p ⟨pos + ethHlen + snapSize, 2⟩ := by
      show pos + ethHlen + snapSize + 2 ≤ p.length
      omega
    by_cases hip : p.be16 (pos + ethHlen + snapSize) = 0x0800
    · rw [if_pos hip, List.forall_mem_singleton]
      exact ⟨fun h _ _ => h.2, fun h => ⟨hfirst, h rfl hip⟩⟩
    · rw [if_neg hip]
      exact ⟨fun _ _ h => absurd h hip, fun _ => ⟨hfirst, fun r hr => nomatch hr⟩⟩

theorem inside_checkReads (hle : pos + ethHlen + (subframeAt p pos).subframeLength ≤ p.length) :
    (∀ r ∈ checkReads a p (subframeAt p pos), r.Inside p) ↔ QueueFits a p (subframeAt p pos) := by
  have hparse : ∀ r ∈ rtwRecvLlcParseReads (pos + ethHlen) (subframeAt p pos).subframeLength,
      r.Inside p := inside_rtwRecvLlcParseReads hle
  unfold checkReads
  rw [List.forall_mem_append]
  refine (and_iff_right hparse).trans ?_
  by_cases hsel : a.fwState.ap ∧ selectsQueue a (subframeAt p pos).da (subframeAt p pos).sa
  · rw [if_pos hsel]
    refine (inside_rtwOsRecvSelectQueueReads hle).trans ?_
    exact ⟨fun h _ _ => h, fun h => h hsel.1 hsel.2⟩
  · rw [if_neg hsel]
    exact ⟨fun _ hap hs => absurd ⟨hap, hs⟩ hsel, fun _ r hr => nomatch hr⟩

@[simp] theorem note_note (w : Walk) (rs rs' : List Read) :
    (w.note rs).note rs' = w.note (rs ++ rs') := by
  simp [Walk.note]

variable (env o a f) in
theorem handle_eq (hle : pos + ethHlen + (subframeAt p pos).subframeLength ≤ p.length) (w : Walk) :
    ∃ rs, ((∀ r ∈ rs, Read.Inside p r) ↔ QueueFits a p (subframeAt p pos)) ∧
      (settle env o a f (subframeAt p pos) w.acc = none →
        handle env o a f p (subframeAt p pos) w = .inr (w.note rs)) ∧
      (∀ acc', settle env o a f (subframeAt p pos) w.acc = some acc' →
        handle env o a f p (subframeAt p pos) w =
          moveToNext (subframeAt p pos).subframeLength { w.note rs with acc := acc' }) := by
  have hchecks := inside_checkReads (a := a) hle
  have hcopy : Read.Inside p ⟨pos + ethHlen, (subframeAt p pos).subframeLength⟩ := hle
  have hpkt : msduPkt (subframeAt p pos).da (subframeAt p pos).sa (subframeAt p pos).msdu
      (rtwRecvLlcParse (p.drop (pos + ethHlen)) (subframeAt p pos).subframeLength) =
        (subframeAt p pos).ethernet := by
    rw [llcHdl_eq hle]
    rfl
  unfold settle handle
  by_cases hact : rxMsduActCheck env o a (subframeAt p pos) = {}
  · refine ⟨checkReads a p (subframeAt p pos), hchecks, fun h => ?_, fun acc' h => ?_⟩
    · rw [if_pos hact] at h
      cases h
    · rw [if_pos hact] at h ⊢
      obtain rfl := Option.some.inj h
      rfl
  · cases halloc : (env (subframeAt p pos).pdata).allocMsduPkt a f w.acc.subframes.length with
    | false =>
      refine ⟨checkReads a p (subframeAt p pos), hchecks, fun _ => ?_, fun acc' h => ?_⟩
      · rw [if_neg hact]
        simp [Walk.note, halloc]
      · simp [hact] at h
    | true =>
      refine ⟨checkReads a p (subframeAt p pos) ++
        [⟨pos + ethHlen, (subframeAt p pos).subframeLength⟩], ?_, fun h => ?_, fun acc' h => ?_⟩
      · rw [List.forall_mem_append, List.forall_mem_singleton, and_iff_left hcopy]
        exact hchecks
      · simp [hact] at h
      · rw [if_neg hact, if_pos rfl] at h
        obtain rfl := Option.some.inj h
        rw [if_neg hact, note_note]
        simp only [Walk.note, halloc, Bool.not_true, Bool.false_eq_true, if_false]
        rw [← hpkt]
        rfl

theorem moveToNext_cases (hw : w.pdata + w.aLen = p.length) (hle : ethHlen + n ≤ w.aLen) :
    (maxSubframeCount ≤ w.acc.subframes.length ∧
      ∃ w', moveToNext n w = .inr w' ∧ w'.acc = w.acc ∧ w'.reads = w.reads) ∨
    w.acc.subframes.length < maxSubframeCount ∧
      ((p.length ≤ w.pdata + (ethHlen + n + 3) / 4 * 4 ∧
          ∃ w', moveToNext n w = .inr w' ∧ w'.acc = w.acc ∧ w'.reads = w.reads) ∨
        ∃ w', moveToNext n w = .inl w' ∧ w'.acc = w.acc ∧ w'.reads = w.reads ∧
          w'.pdata + w'.aLen = p.length ∧
          (w'.pdata = w.pdata + (ethHlen + n + 3) / 4 * 4 ∨
            w'.aLen = 0 ∧ p.length ≤ w.pdata + (ethHlen + n + 3) / 4 * 4)) := by
  have heth : ethHlen = 14 := rfl
  unfold moveToNext
  by_cases hcap : maxSubframeCount ≤ w.acc.subframes.length
  · rw [if_pos hcap]
    exact .inl ⟨hcap, _, rfl, rfl, rfl⟩
  · rw [if_neg hcap]
    refine .inr ⟨by omega, ?_⟩
    dsimp only
    split_ifs with hzero hpad
    · exact .inr ⟨_, rfl, rfl, rfl, by dsimp only; omega,
        .inr ⟨hzero, by omega⟩⟩
    · exact .inl ⟨by omega, _, rfl, rfl, rfl⟩
    · exact .inr ⟨_, rfl, rfl, rfl, by dsimp only; omega,
        .inl (by dsimp only; omega)⟩

/-! ## The walk -/

variable (env o a f p)

def Follows (ss : List Subframe) (w w' : Walk) : Prop :=
  w'.acc = (collect env o a f ss w.acc).2 ∧
    ((∀ r ∈ w'.reads, Read.Inside p r) ↔ (∀ r ∈ w.reads, Read.Inside p r) ∧
      ∀ s ∈ (collect env o a f ss w.acc).1, QueueFits a p s)

variable {env o a f p}

theorem collect_of_none (ss : List Subframe) (h : settle env o a f s acc = none) :
    collect env o a f (s :: ss) acc = ([s], acc) := by
  rw [collect, h]

theorem collect_of_full (ss : List Subframe) (h : settle env o a f s acc = some acc')
    (hfull : maxSubframeCount ≤ acc'.subframes.length) :
    collect env o a f (s :: ss) acc = ([s], acc') := by
  rw [collect, h]
  exact if_pos hfull

theorem collect_of_some (h : settle env o a f s acc = some acc')
    (hlt : acc'.subframes.length < maxSubframeCount) :
    collect env o a f (s :: ss) acc =
      (s :: (collect env o a f ss acc').1, (collect env o a f ss acc').2) := by
  rw [collect, h]
  exact if_neg (by omega)

theorem follows_of_reads {rs : List Read} (hacc : w'.acc = (collect env o a f ss w.acc).2)
    (hreads : w'.reads = w.reads ++ rs)
    (hrs : (∀ r ∈ rs, Read.Inside p r) ↔ ∀ s ∈ (collect env o a f ss w.acc).1, QueueFits a p s) :
    Follows env o a f p ss w w' := by
  refine ⟨hacc, ?_⟩
  rw [hreads, List.forall_mem_append, hrs]

theorem follows_cons {rs : List Read} (hset : settle env o a f s w.acc = some acc')
    (hlt : acc'.subframes.length < maxSubframeCount) {w₁ : Walk} (hacc : w₁.acc = acc')
    (hreads : w₁.reads = w.reads ++ rs)
    (hrs : (∀ r ∈ rs, Read.Inside p r) ↔ QueueFits a p s)
    (h : Follows env o a f p ss w₁ w') : Follows env o a f p (s :: ss) w w' := by
  unfold Follows at h ⊢
  rw [collect_of_some hset hlt, ← hacc]
  refine ⟨h.1, h.2.trans ?_⟩
  rw [hreads, List.forall_mem_append, hrs, List.forall_mem_cons, and_assoc]

def headerReads (pos : ℕ) : List Read := [⟨pos + 12, 2⟩, ⟨pos, ethAlen⟩, ⟨pos + ethAlen, ethAlen⟩]

theorem inside_headerReads (h : pos + ethHlen < p.length) :
    ∀ r ∈ headerReads pos, Read.Inside p r := by
  have heth : ethHlen = 14 := rfl
  have haddr : ethAlen = 6 := rfl
  intro r hr
  simp only [headerReads, List.mem_cons, List.not_mem_nil, or_false] at hr
  unfold Read.Inside
  rcases hr with rfl | rfl | rfl <;> dsimp only <;> omega

theorem pass_of_complete (hlt : ethHlen < w.aLen)
    (hle : ethHlen + (subframeAt p w.pdata).subframeLength ≤ w.aLen) :
    pass env o a f p w =
      if validateAmsduContent a f.attrib (subframeAt p w.pdata).da (subframeAt p w.pdata).sa = true
      then handle env o a f p (subframeAt p w.pdata) (w.note (headerReads w.pdata))
      else .inr (w.note (headerReads w.pdata)) := by
  have hnote : (w.note [⟨w.pdata + 12, 2⟩]).note
      [⟨w.pdata, ethAlen⟩, ⟨w.pdata + ethAlen, ethAlen⟩] = w.note (headerReads w.pdata) :=
    note_note w _ _
  unfold pass
  rw [if_neg (by omega)]
  dsimp only
  rw [if_neg (by simp only [Walk.note]; omega)]
  cases validateAmsduContent a f.attrib (subframeAt p w.pdata).da (subframeAt p w.pdata).sa with
  | false => exact congrArg Sum.inr hnote
  | true => exact congrArg (handle env o a f p (subframeAt p w.pdata)) hnote

variable (env o) in
/-- One pass, from a position where the grammar goes on with `ss`. -/
theorem pass_follows (hw : w.pdata + w.aLen = p.length)
    (hss : Splits (validateAmsduContent a f.attrib) p w.pdata ss) :
    (∀ w', pass env o a f p w = .inr w' → Follows env o a f p ss w w') ∧
      ∀ w₁, pass env o a f p w = .inl w₁ → w₁.pdata + w₁.aLen = p.length ∧
        ∃ ss₁, Splits (validateAmsduContent a f.attrib) p w₁.pdata ss₁ ∧
          ∀ w', Follows env o a f p ss₁ w₁ w' → Follows env o a f p ss w w' := by
  cases hss with
  | short hle =>
    unfold pass
    rw [if_pos (by omega)]
    refine ⟨fun w' h => ?_, fun w₁ h => nomatch h⟩
    obtain rfl := Sum.inr.inj h
    exact ⟨rfl, (and_iff_left fun s hs => nomatch hs).symm⟩
  | malformed hlt hlen =>
    have heth : ethHlen = 14 := rfl
    have hread : ∀ r ∈ [Read.mk (w.pdata + 12) 2], r.Inside p := by
      intro r hr
      obtain rfl := List.mem_singleton.mp hr
      show w.pdata + 12 + 2 ≤ p.length
      omega
    unfold pass
    rw [if_neg (by omega)]
    dsimp only
    rw [if_pos (by simp only [Walk.note]; omega)]
    refine ⟨fun w' h => ?_, fun w₁ h => nomatch h⟩
    obtain rfl := Sum.inr.inj h
    exact follows_of_reads rfl rfl (iff_of_true hread fun s hs => nomatch hs)
  | refused hlt hle hc =>
    rw [pass_of_complete (by omega) (by omega), hc]
    refine ⟨fun w' h => ?_, fun w₁ h => nomatch h⟩
    obtain rfl := Sum.inr.inj h
    exact follows_of_reads rfl rfl (iff_of_true (inside_headerReads hlt) fun s hs => nomatch hs)
  | @subframe _ ss hlt hle hc hss =>
    have hpos : 0 < ethHlen := by decide
    obtain ⟨rs, hrs, hnone, hsome⟩ := handle_eq env o a f hle
      (w.note (headerReads w.pdata))
    have hall : (∀ r ∈ headerReads w.pdata ++ rs, Read.Inside p r) ↔
        QueueFits a p (subframeAt p w.pdata) := by
      rw [List.forall_mem_append, hrs]
      exact and_iff_right (inside_headerReads hlt)
    have hreads : ((w.note (headerReads w.pdata)).note rs).reads =
        w.reads ++ (headerReads w.pdata ++ rs) := List.append_assoc _ _ _
    rw [pass_of_complete (by omega) (by omega), if_pos hc]
    cases hset : settle env o a f (subframeAt p w.pdata) w.acc with
    | none =>
      rw [hnone hset]
      refine ⟨fun w' h => ?_, fun w₁ h => nomatch h⟩
      obtain rfl := Sum.inr.inj h
      have hcol := collect_of_none ss hset
      refine follows_of_reads ?_ hreads ?_
      · rw [hcol]
        rfl
      · rw [hcol, List.forall_mem_singleton]
        exact hall
    | some acc' =>
      rw [hsome acc' hset]
      obtain ⟨hfull, w₁, hmove, hacc, hr⟩ | ⟨hfree, ⟨hend, w₁, hmove, hacc, hr⟩ |
          ⟨w₁, hmove, hacc, hr, hsum, hnext⟩⟩ := moveToNext_cases
        (w := { (w.note (headerReads w.pdata)).note rs with acc := acc' })
        (n := (subframeAt p w.pdata).subframeLength) hw (by show _ ≤ w.aLen; omega)
      · -- the array is full
        rw [hmove]
        refine ⟨fun w' h => ?_, fun w₁ h => nomatch h⟩
        obtain rfl := Sum.inr.inj h
        have hcol := collect_of_full ss hset hfull
        refine follows_of_reads ?_ (hr.trans hreads) ?_
        · rw [hcol]
          exact hacc
        · rw [hcol, List.forall_mem_singleton]
          exact hall
      · -- less is left than the padding
        rw [hmove]
        refine ⟨fun w' h => ?_, fun w₁ h => nomatch h⟩
        obtain rfl := Sum.inr.inj h
        obtain rfl := hss.eq_nil (Nat.le_add_right_of_le hend)
        refine follows_cons hset hfree hacc (hr.trans hreads) hall ?_
        exact ⟨rfl, (and_iff_left fun s hs => nomatch hs).symm⟩
      · rw [hmove]
        refine ⟨fun w' h => (nomatch h), fun w₂ h => ?_⟩
        obtain rfl := Sum.inl.inj h
        refine ⟨hsum, ss, ?_, fun w' => follows_cons hset hfree hacc (hr.trans hreads) hall⟩
        obtain hpos | ⟨hzero, hend⟩ := hnext
        · rw [hpos]
          exact hss
        · obtain rfl := hss.eq_nil (Nat.le_add_right_of_le hend)
          exact .short (by omega)

variable (env o a f p) in
/-- **The walk follows the grammar**, whatever the rest of the driver answers. -/
theorem walk_eq_collect (hss : Splits (validateAmsduContent a f.attrib) p 0 ss)
    (hwalk : walk env o a f p = some w) :
    w.acc = (collect env o a f ss {}).2 ∧
      ((∀ r ∈ w.reads, Read.Inside p r) ↔
        ∀ s ∈ (collect env o a f ss {}).1, QueueFits a p s) := by
  set w₀ : Walk := { pdata := 0, aLen := p.length }
  -- at the head of the loop the rest of the walk decides about the whole
  have hfollows : Follows env o a f p ss w₀ w := by
    refine Loop.iterate_invariant
      (I := fun w₁ => w₁.pdata + w₁.aLen = p.length ∧
        ∃ ss₁, Splits (validateAmsduContent a f.attrib) p w₁.pdata ss₁ ∧
          ∀ w', Follows env o a f p ss₁ w₁ w' → Follows env o a f p ss w₀ w')
      (P := Follows env o a f p ss w₀) ?_ ?_ ⟨Nat.zero_add _, ss, hss, fun _ h => h⟩ hwalk
    · rintro w₁ w₂ ⟨hsum, ss₁, hss₁, hrest⟩ hpass
      obtain ⟨hsum₂, ss₂, hss₂, hrest₂⟩ := (pass_follows env o hsum hss₁).2 w₂ hpass
      exact ⟨hsum₂, ss₂, hss₂, fun w' h => hrest w' (hrest₂ w' h)⟩
    · rintro w₁ w' ⟨hsum, ss₁, hss₁, hrest⟩ hpass
      exact hrest w' ((pass_follows env o hsum hss₁).1 w' hpass)
  exact ⟨hfollows.1, hfollows.2.trans (and_iff_right fun r hr => nomatch hr)⟩

theorem aLen_of_moveToNext (h : moveToNext n w = .inl w') : w'.aLen ≤ w.aLen - ethHlen := by
  unfold moveToNext at h
  dsimp only at h
  split_ifs at h <;> obtain rfl := Sum.inl.inj h <;> dsimp only <;> omega

theorem aLen_of_handle (h : handle env o a f p s w = .inl w') : w'.aLen ≤ w.aLen - ethHlen := by
  unfold handle at h
  dsimp only at h
  split_ifs at h with hact halloc
  · have hle := aLen_of_moveToNext h
    exact hle
  · have hle := aLen_of_moveToNext h
    exact hle

theorem aLen_of_pass (h : pass env o a f p w = .inl w') : w'.aLen + ethHlen ≤ w.aLen := by
  unfold pass at h
  dsimp only at h
  split_ifs at h with hlt hlen hc
  have hle := aLen_of_handle h
  simp only [Walk.note] at hle
  omega

variable (env o a f p)

/-- **The loop ends**: every pass takes a header off the payload. -/
theorem isSome_walk : (walk env o a f p).isSome := by
  refine Loop.isSome_iterate (fun w => w.aLen / ethHlen) (fun w w' h => ?_) (Nat.lt_succ_self _)
  have hle := aLen_of_pass h
  have heth : ethHlen = 14 := rfl
  simp only [heth] at hle ⊢
  omega

variable {env o a f p}

def accepted (o : Options) (ss : List Subframe) : List Bytes :=
  ((ss.filter fun s => rtwStaRxAmsduActCheck o s.da s.sa ≠ {}).map Subframe.ethernet).filter
    (rtwRecvIndicatepktCheck o)

theorem accepted_cons (o : Options) (s : Subframe) (ss : List Subframe) :
    accepted o (s :: ss) = accepted o [s] ++ accepted o ss := by
  unfold accepted
  rw [← List.filter_append, ← List.map_append, ← List.filter_append]
  rfl

theorem length_accepted_singleton_le (o : Options) (s : Subframe) :
    (accepted o [s]).length ≤ 1 := by
  unfold accepted
  calc _ ≤ _ := List.length_filter_le _ _
    _ = _ := List.length_map _
    _ ≤ 1 := List.length_filter_le _ _

theorem rxMsduActCheck_station (hap : a.fwState.ap = false) (hstation : a.fwState.station) :
    rxMsduActCheck env o a s = rtwStaRxAmsduActCheck o s.da s.sa := by
  unfold rxMsduActCheck
  rw [hap, if_neg Bool.false_ne_true, if_pos hstation]

theorem rtwStaRxAmsduActCheck_of_ne (o : Options) {da sa : MacAddr}
    (h : rtwStaRxAmsduActCheck o da sa ≠ {}) : rtwStaRxAmsduActCheck o da sa = ⟨true, false⟩ := by
  unfold rtwStaRxAmsduActCheck at h ⊢
  split_ifs at h ⊢
  · exact absurd rfl h
  · rfl

theorem settle_of_station (o : Options) (s : Subframe) (acc : Subframes)
    (hap : a.fwState.ap = false) (hstation : a.fwState.station)
    (halloc : ∀ i n, (env i).allocMsduPkt a f n) :
    ∃ acc', settle env o a f s acc = some acc' ∧ acc'.forwarded = acc.forwarded ∧
      acc'.subframes = acc.subframes ++ accepted o [s] := by
  unfold settle
  rw [rxMsduActCheck_station hap hstation]
  by_cases hact : rtwStaRxAmsduActCheck o s.da s.sa = {}
  · rw [if_pos hact]
    refine ⟨acc, rfl, rfl, ?_⟩
    simp [accepted, hact]
  · rw [if_neg hact, if_pos (halloc _ _)]
    refine ⟨_, rfl, ?_, ?_⟩
    · simp [keep, rtwStaRxAmsduActCheck_of_ne o hact]
    · cases hchk : rtwRecvIndicatepktCheck o s.ethernet with
      | false => simp [keep, rtwStaRxAmsduActCheck_of_ne o hact, accepted, hchk]
      | true => simp [keep, rtwStaRxAmsduActCheck_of_ne o hact, accepted, hchk]

theorem collect_of_station (hap : a.fwState.ap = false) (hstation : a.fwState.station)
    (halloc : ∀ i n, (env i).allocMsduPkt a f n) (hlt : acc.subframes.length < maxSubframeCount) :
    (collect env o a f ss acc).2.forwarded = acc.forwarded ∧
      (collect env o a f ss acc).2.subframes =
        (acc.subframes ++ accepted o ss).take maxSubframeCount := by
  induction ss generalizing acc with
  | nil =>
    refine ⟨rfl, ?_⟩
    rw [show accepted o [] = [] from rfl, List.append_nil, List.take_of_length_le hlt.le]
    rfl
  | cons s ss ih =>
    obtain ⟨acc', hset, hfwd, hsub⟩ := settle_of_station o s acc hap hstation halloc
    rw [accepted_cons, ← List.append_assoc, ← hsub]
    rcases Nat.lt_or_ge acc'.subframes.length maxSubframeCount with hless | hfull
    · rw [collect_of_some hset hless]
      obtain ⟨hfwd', hsub'⟩ := ih hless
      exact ⟨hfwd'.trans hfwd, hsub'⟩
    · rw [collect_of_full ss hset hfull]
      refine ⟨hfwd, ?_⟩
      have hone := length_accepted_singleton_le o s
      have hlen := congrArg List.length hsub
      rw [List.length_append] at hlen
      have hmax : acc'.subframes.length = maxSubframeCount := by omega
      rw [List.take_append_of_le_length hmax.ge, List.take_of_length_le hmax.le]

variable (env o a f p)

/-- The loop ends, reads the payload only, and delivers what the grammar says. -/
structure Right : Prop where
  ends : (walk env o a f p).isSome
  reads : ∀ w, walk env o a f p = some w → ∀ r ∈ w.reads, r.Inside p
  delivers : a.fwState.ap = false → a.fwState.station →
    (∀ i n, (env i).allocMsduPkt a f n) →
    ∃ ss, Splits (validateAmsduContent a f.attrib) p 0 ss ∧
      (∀ ss', Splits (validateAmsduContent a f.attrib) p 0 ss' → ss' = ss) ∧
      ∀ w, walk env o a f p = some w →
        w.acc.forwarded = [] ∧ w.acc.subframes = (accepted o ss).take maxSubframeCount

variable {env o a f p}

theorem right_of_queueFits
    (h : ∀ ss, Splits (validateAmsduContent a f.attrib) p 0 ss →
      ∀ s ∈ (collect env o a f ss {}).1, QueueFits a p s) : Right env o a f p := by
  obtain ⟨ss, hss⟩ := Splits.exists (validateAmsduContent a f.attrib) p 0
  refine ⟨isSome_walk env o a f p, fun w hw => ?_, fun hap hstation halloc => ?_⟩
  · exact (walk_eq_collect env o a f p hss hw).2.mpr (h ss hss)
  · refine ⟨ss, hss, fun ss' hss' => hss'.unique hss, fun w hw => ?_⟩
    rw [(walk_eq_collect env o a f p hss hw).1]
    exact collect_of_station hap hstation halloc (by decide)

variable (env o a f p)

/-- **Splitting is right exactly if no queue is selected by an octet behind the payload.** -/
theorem right_iff :
    Right env o a f p ↔
      ∀ ss, Splits (validateAmsduContent a f.attrib) p 0 ss →
        ∀ s ∈ (collect env o a f ss {}).1, QueueFits a p s := by
  refine ⟨fun h ss hss => ?_, right_of_queueFits⟩
  obtain ⟨w, hw⟩ := Option.isSome_iff_exists.mp h.ends
  exact (walk_eq_collect env o a f p hss hw).2.mp (h.reads w hw)

/-- A broadcast subframe with eight octets behind its header: they announce an IPv4 packet, and
the payload ends. -/
def bareSnap : Bytes :=
  MacAddr.bcast.toBytes ++ [0x02, 0, 0, 0, 0, 0x01] ++ Bytes.ofBe16 8 ++
    [0xaa, 0xaa, 0x03, 0, 0, 0, 0x08, 0x00]

def noCipher : Env where
  crypto := ⟨fun _ _ => [], fun _ => [], fun _ _ _ => [], fun _ _ _ _ => [],
    fun _ _ _ _ _ _ => none, fun _ _ _ _ _ => none, fun _ _ _ _ _ => none⟩

def twoStations : Adapter where
  macAddr := ⟨0x02, 0, 0, 0, 0, 0x02⟩
  fwState := { ap := true }
  asocListCnt := 2

/-- The type of service is read behind `bareSnap` when two stations are associated. -/
theorem not_right_bareSnap : ¬ Right (fun _ => noCipher) {} twoStations { id := 0 } bareSnap := by
  intro h
  have hread : (walk (fun _ => noCipher) {} twoStations { id := 0 } bareSnap).any
      fun w => (⟨23, 1⟩ : Read) ∈ w.reads := by decide
  obtain ⟨w, hw, hmem⟩ := (Option.any_eq_true _ _).mp hread
  have hlt : 23 + 1 ≤ bareSnap.length := h.reads w hw _ (of_decide_eq_true hmem)
  exact absurd hlt (by decide)

/-! ## The receive path -/

variable {env o a f p} {e : Env}

theorem be16_drop (p : Bytes) (i j : ℕ) : Bytes.be16 (p.drop i) j = p.be16 (i + j) := by
  rw [Bytes.be16, Bytes.be16, Bytes.u8_drop, Bytes.u8_drop, Nat.add_assoc]

theorem mac_drop (p : Bytes) (i j : ℕ) : Bytes.mac (p.drop i) j = p.mac (i + j) := by
  simp only [Bytes.mac, Bytes.u8_drop, Nat.add_assoc]

/-- `move_to_next`, in the loop of `amsduToMsdu`. -/
def next (e : Env) (a : Adapter) (f : RecvFrame) (m : ℕ) (q : Bytes) (n : ℕ) (acc : Subframes) :
    Subframes :=
  if maxSubframeCount ≤ acc.subframes.length then acc
  else if q.drop (ethHlen + n) = [] then acc
  else if (q.drop (ethHlen + n)).length < (4 - (n + ethHlen) % 4) % 4 then acc
  else amsduSubframes e a f m ((q.drop (ethHlen + n)).drop ((4 - (n + ethHlen) % 4) % 4)) acc

theorem amsduSubframes_succ (m : ℕ) (q : Bytes) (acc : Subframes) :
    amsduSubframes e a f (m + 1) q acc =
      if q.length ≤ ethHlen ∨ q.length < ethHlen + q.be16 12 then acc
      else if !validateAmsduContent a f.attrib (q.mac 0) (q.mac ethAlen) then acc
      else
        let act := if a.fwState.ap then rtwApRxMsduActCheck e a (q.mac 0) (q.mac ethAlen)
          else ⟨true, false⟩
        let pkt := msduPkt (q.mac 0) (q.mac ethAlen) ((q.drop ethHlen).take (q.be16 12))
          (rtwRecvLlcParse (q.drop ethHlen) (q.be16 12))
        if act = {} then next e a f m q (q.be16 12) acc
        else if !e.allocMsduPkt a f acc.subframes.length then acc
        else next e a f m q (q.be16 12)
          ⟨acc.forwarded ++ if act.forward then recvFwdPktHdl e a f act pkt else [],
            if act.indicate then acc.subframes ++ [pkt] else acc.subframes⟩ := rfl

theorem amsduSubframes_of_short {q : Bytes} (m : ℕ) (acc : Subframes)
    (h : q.length ≤ ethHlen ∨ q.length < ethHlen + q.be16 12) :
    amsduSubframes e a f m q acc = acc := by
  cases m with
  | zero => rfl
  | succ m => rw [amsduSubframes_succ, if_pos h]

theorem next_eq (m : ℕ) (acc : Subframes)
    (hle : pos + ethHlen + (subframeAt p pos).subframeLength ≤ p.length) :
    next e a f m (p.drop pos) (subframeAt p pos).subframeLength acc =
      if maxSubframeCount ≤ acc.subframes.length then acc
      else amsduSubframes e a f m (p.drop (pos + (subframeAt p pos).size)) acc := by
  have heth : ethHlen = 14 := rfl
  have hsize : (subframeAt p pos).size =
      (ethHlen + (subframeAt p pos).subframeLength + 3) / 4 * 4 := rfl
  -- behind the last subframe nothing is left
  have hlast : p.length ≤ pos + (subframeAt p pos).size →
      amsduSubframes e a f m (p.drop (pos + (subframeAt p pos).size)) acc = acc := by
    intro hend
    refine amsduSubframes_of_short m acc (.inl ?_)
    rw [List.length_drop]
    omega
  unfold next
  rw [List.drop_drop, List.drop_drop, List.length_drop]
  refine if_congr Iff.rfl rfl ?_
  split_ifs with hnil hpad
  · have hzero := List.drop_eq_nil_iff.mp hnil
    exact (hlast (by omega)).symm
  · exact (hlast (by omega)).symm
  · rw [show pos + (ethHlen + (subframeAt p pos).subframeLength) +
      (4 - ((subframeAt p pos).subframeLength + ethHlen) % 4) % 4 =
        pos + (subframeAt p pos).size by omega]

/-- Without WDS every mode but that of an access point accepts all subframes. -/
theorem rxMsduActCheck_default (s : Subframe) :
    rxMsduActCheck (fun _ => e) {} a s =
      if a.fwState.ap then rtwApRxMsduActCheck e a s.da s.sa else ⟨true, false⟩ := by
  have hsta : rtwStaRxAmsduActCheck {} s.da s.sa = ⟨true, false⟩ := by
    simp [rtwStaRxAmsduActCheck]
  unfold rxMsduActCheck
  rw [hsta, ite_self]

theorem keep_default (act : MsduAct) (pkt : Bytes) (acc : Subframes) :
    keep (fun _ => e) {} a f s act pkt acc =
      ⟨acc.forwarded ++ if act.forward then recvFwdPktHdl e a f act pkt else [],
        if act.indicate then acc.subframes ++ [pkt] else acc.subframes⟩ := by
  simp [keep, rtwRecvIndicatepktCheck]

theorem amsduSubframes_settle (m : ℕ) (acc : Subframes) (hlt : pos + ethHlen < p.length)
    (hle : pos + ethHlen + (subframeAt p pos).subframeLength ≤ p.length)
    (hc : validateAmsduContent a f.attrib (subframeAt p pos).da (subframeAt p pos).sa) :
    amsduSubframes e a f (m + 1) (p.drop pos) acc =
      ((settle (fun _ => e) {} a f (subframeAt p pos) acc).map
        (next e a f m (p.drop pos) (subframeAt p pos).subframeLength)).getD acc := by
  have hlen : (p.drop pos).length = p.length - pos := List.length_drop
  have hn : Bytes.be16 (p.drop pos) 12 = (subframeAt p pos).subframeLength := be16_drop _ _ _
  have hda : Bytes.mac (p.drop pos) 0 = (subframeAt p pos).da := mac_drop _ _ _
  have hsa : Bytes.mac (p.drop pos) ethAlen = (subframeAt p pos).sa := mac_drop _ _ _
  have hmsdu : ((p.drop pos).drop ethHlen).take (subframeAt p pos).subframeLength =
      (subframeAt p pos).msdu := by
    rw [List.drop_drop]
    rfl
  have hpkt : msduPkt (subframeAt p pos).da (subframeAt p pos).sa (subframeAt p pos).msdu
      (rtwRecvLlcParse ((p.drop pos).drop ethHlen) (subframeAt p pos).subframeLength) =
        (subframeAt p pos).ethernet := by
    rw [List.drop_drop, llcHdl_eq hle]
    rfl
  rw [amsduSubframes_succ, hn, hda, hsa, hmsdu, hpkt, hc, if_neg (by omega)]
  dsimp only
  unfold settle
  rw [← rxMsduActCheck_default, keep_default]
  by_cases hact : rxMsduActCheck (fun _ => e) {} a (subframeAt p pos) = {}
  · rw [if_pos hact, if_pos hact]
    rfl
  · rw [if_neg hact, if_neg hact]
    cases e.allocMsduPkt a f acc.subframes.length with
    | false => rfl
    | true => rfl

theorem amsduSubframes_eq_collect (hss : Splits (validateAmsduContent a f.attrib) p pos ss)
    {m : ℕ} (hm : p.length ≤ pos + m) (acc : Subframes) :
    amsduSubframes e a f m (p.drop pos) acc = (collect (fun _ => e) {} a f ss acc).2 := by
  induction hss generalizing m acc with
  | short hle =>
    refine amsduSubframes_of_short m acc (.inl ?_)
    rw [List.length_drop]
    omega
  | @malformed pos hlt hlen =>
    refine amsduSubframes_of_short m acc (.inr ?_)
    have hn : Bytes.be16 (p.drop pos) 12 = (subframeAt p pos).subframeLength := be16_drop _ _ _
    rw [List.length_drop, hn]
    omega
  | @refused pos hlt hle hc =>
    have hda : Bytes.mac (p.drop pos) 0 = (subframeAt p pos).da := mac_drop _ _ _
    have hsa : Bytes.mac (p.drop pos) ethAlen = (subframeAt p pos).sa := mac_drop _ _ _
    obtain _ | m := m
    · rfl
    · rw [amsduSubframes_succ, hda, hsa, hc]
      exact ite_self _
  | @subframe pos ss hlt hle hc _ ih =>
    obtain _ | m := m
    · omega
    · have hsize := le_size (subframeAt p pos)
      rw [amsduSubframes_settle m acc hlt hle hc]
      cases hset : settle (fun _ => e) {} a f (subframeAt p pos) acc with
      | none =>
        rw [collect_of_none ss hset]
        rfl
      | some acc' =>
        show next e a f m (p.drop pos) (subframeAt p pos).subframeLength acc' = _
        rw [next_eq m acc' hle]
        by_cases hfull : maxSubframeCount ≤ acc'.subframes.length
        · rw [if_pos hfull, collect_of_full ss hset hfull]
        · rw [if_neg hfull, collect_of_some hset (by omega)]
          have hpos : 0 < ethHlen := by decide
          exact ih (by omega) acc'

def payload (f : RecvFrame) : RecvFrame :=
  let g := recvframePull f f.attrib.hdrlen
  let g := if 0 < f.attrib.ivLen then recvframePull g f.attrib.ivLen else g
  if f.attrib.encrypt ≠ .noPrivacy then recvframePullTail g f.attrib.icvLen else g

/-- **The walk is that of the receive path**: `amsduToMsdu` hands on what the walk over the payload
has kept. -/
theorem amsduToMsdu_eq_walk (e : Env) (a : Adapter) (f : RecvFrame) :
    ∃ w, walk (fun _ => e) {} a f (payload f).rxData = some w ∧
      amsduToMsdu e a f = (.success, rtwFreeRecvframe
        (a.emit (w.acc.forwarded ++ w.acc.subframes.map (.indicate f.pkt ·))) f.id) := by
  obtain ⟨w, hw⟩ := Option.isSome_iff_exists.mp
    (isSome_walk (fun _ => e) {} a f (payload f).rxData)
  obtain ⟨ss, hss⟩ := Splits.exists (validateAmsduContent a f.attrib) (payload f).rxData 0
  have hsub : amsduSubframes e a f (payload f).len (payload f).rxData {} = w.acc := by
    rw [(walk_eq_collect (fun _ => e) {} a f (payload f).rxData hss hw).1]
    exact amsduSubframes_eq_collect hss (Nat.le_add_left _ _) {}
  refine ⟨w, hw, ?_⟩
  rw [← hsub]
  rfl

end Rtl88x2eu.Amsdu
