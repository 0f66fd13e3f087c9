import Rtl88x2eu.Recv.ReorderSafety
import Rtl88x2eu.Recv.Validate

/-!
# BlockAckReq frames

`rtw_process_bar_frame` sets the window start of one TID of the transmitter to the starting
sequence number of the frame, whatever the window holds. A run interleaves such frames with the
arrivals and timeouts of every window of the adapter; `windowSteps` is what one window sees of
it. The laws of the window hold in a run exactly when every frame finds nothing due: its starting
number is not behind the window, and everything queued is ahead of it.

## Main definitions

* `barTid`, `barStartSeq`: the fields of the frame
* `AdapterCall`, `Adapter.windowCall`: the calls on the windows of an adapter
* `WindowStep`, `windowSteps`: what one window goes through
* `WindowStep.Lawful`, `ReorderLaws`: the laws of a step and of a run
* `WindowStep.NothingDue`

## Main results

* `WindowStep.lawful_iff`: one step
* `reorderLaws_iff`: every run
-/

namespace Rtl88x2eu

open Reordering

/-- The TID of a BlockAckReq, the top bits of its control field. -/
def barTid (pframe : Bytes) : Tid := Tid.clamp (pframe.le16 16 / 4096)

def barStartSeq (pframe : Bytes) : ℕ := pframe.le16 18 / 16

theorem barStartSeq_lt (pframe : Bytes) : barStartSeq pframe < 4096 := by
  have hlt := pframe.le16_lt 18
  unfold barStartSeq
  omega

theorem rtwProcessBarFrame_of_sta {a : Adapter} {pframe : Bytes} {psta : StaId}
    (h : rtwGetStainfo a (getAddr2 pframe) = some psta) :
    rtwProcessBarFrame a pframe = a.setReorder (psta, barTid pframe)
      { a.reorder (psta, barTid pframe) with indicateSeq := barStartSeq pframe } := by
  rw [rtwProcessBarFrame, h]
  rfl

/-! ## Calls -/

/-- A call on the windows of an adapter: a received frame and the reorder timer of a window, or a
BlockAckReq. -/
inductive AdapterCall
  | recv (p : StaId × Tid) (f : RecvFrame)
  | timeout (p : StaId × Tid)
  | bar (pframe : Bytes)

/-- A call, and the frames that each window hands to `recv_process_mpdu`. -/
def Adapter.windowCall (a : Adapter) :
    AdapterCall → Adapter × List ((StaId × Tid) × RecvFrame)
  | .recv p f =>
    let step := (a.reorder p).recvIndicatepktReorder f
    (a.setReorder p step.2.1, step.2.2.map (p, ·))
  | .timeout p =>
    let step := (a.reorder p).timeout
    (a.setReorder p step.1, step.2.map (p, ·))
  | .bar pframe => (rtwProcessBarFrame a pframe, [])

inductive WindowCall
  | recv (f : RecvFrame)
  | timeout
  | bar (startSeq : ℕ)
  | other

def Adapter.callOn (a : Adapter) (p : StaId × Tid) : AdapterCall → WindowCall
  | .recv q f => if q = p then .recv f else .other
  | .timeout q => if q = p then .timeout else .other
  | .bar pframe =>
    if (rtwGetStainfo a (getAddr2 pframe)).map (·, barTid pframe) = some p then
      .bar (barStartSeq pframe)
    else .other

def RecvReorderCtrl.windowCall (c : RecvReorderCtrl) : WindowCall → RecvReorderCtrl × List RecvFrame
  | .recv f => (c.recvIndicatepktReorder f).2
  | .timeout => c.timeout
  | .bar startSeq => ({ c with indicateSeq := startSeq }, [])
  | .other => (c, [])

def framesOf (p : StaId × Tid) (out : List ((StaId × Tid) × RecvFrame)) : List RecvFrame :=
  (out.filter (·.1 = p)).map Prod.snd

theorem framesOf_map (p q : StaId × Tid) (out : List RecvFrame) :
    framesOf p (out.map (q, ·)) = if q = p then out else [] := by
  by_cases h : q = p
  · simp [framesOf, h, List.filter_map, Function.comp_def]
  · simp [framesOf, h, List.filter_map, Function.comp_def]

theorem reorder_setReorder_apply (a : Adapter) (p q : StaId × Tid) (c : RecvReorderCtrl) :
    (a.setReorder q c).reorder p = if q = p then c else a.reorder p := by
  by_cases h : q = p
  · rw [if_pos h, h, reorder_setReorder]
  · rw [if_neg h, reorder_setReorder_of_ne a c (Ne.symm h)]

/-- **A call on the adapter is a call on each window.** -/
theorem windowCall_reorder (a : Adapter) (p : StaId × Tid) (k : AdapterCall) :
    ((a.windowCall k).1.reorder p, framesOf p (a.windowCall k).2) =
      (a.reorder p).windowCall (a.callOn p k) := by
  cases k with
  | recv q f =>
    by_cases h : q = p
    · simp [Adapter.windowCall, Adapter.callOn, framesOf_map, h, RecvReorderCtrl.windowCall]
    · simp [Adapter.windowCall, Adapter.callOn, framesOf_map, reorder_setReorder_apply, h,
        RecvReorderCtrl.windowCall]
  | timeout q =>
    by_cases h : q = p
    · simp [Adapter.windowCall, Adapter.callOn, framesOf_map, h, RecvReorderCtrl.windowCall]
    · simp [Adapter.windowCall, Adapter.callOn, framesOf_map, reorder_setReorder_apply, h,
        RecvReorderCtrl.windowCall]
  | bar pframe =>
    cases hsta : rtwGetStainfo a (getAddr2 pframe) with
    | none =>
      simp [Adapter.windowCall, rtwProcessBarFrame, Adapter.callOn, hsta, framesOf,
        RecvReorderCtrl.windowCall]
    | some psta =>
      by_cases h : (psta, barTid pframe) = p
      · simp [Adapter.windowCall, rtwProcessBarFrame_of_sta hsta, Adapter.callOn, hsta, framesOf,
          ← h, RecvReorderCtrl.windowCall]
      · simp [Adapter.windowCall, rtwProcessBarFrame_of_sta hsta, Adapter.callOn, hsta, framesOf, h,
          reorder_setReorder_apply, RecvReorderCtrl.windowCall]

/-! ## Steps -/

structure WindowStep where
  call : WindowCall
  before : RecvReorderCtrl
  after : RecvReorderCtrl
  out : List RecvFrame

def RecvReorderCtrl.step (c : RecvReorderCtrl) (k : WindowCall) : WindowStep :=
  ⟨k, c, (c.windowCall k).1, (c.windowCall k).2⟩

def windowSteps (p : StaId × Tid) (a : Adapter) : List AdapterCall → List WindowStep
  | [] => []
  | k :: ks =>
    ⟨a.callOn p k, a.reorder p, (a.windowCall k).1.reorder p, framesOf p (a.windowCall k).2⟩ ::
      windowSteps p (a.windowCall k).1 ks

def WindowStep.first (s : WindowStep) : ℕ :=
  if s.before.indicateSeq = 0xFFFF then
    match s.call with
    | .recv f => f.attrib.seqNum
    | .bar startSeq => startSeq
    | _ => 0xFFFF
  else s.before.indicateSeq

/-- Due once a BlockAckReq has named `startSeq`: queued before it, or in the unbroken run that
begins at it. -/
def BarDue (startSeq : ℕ) (q : List RecvFrame) (f : RecvFrame) : Prop :=
  snLess f.attrib.seqNum startSeq ∨
    ∀ i ≤ snOffset startSeq f.attrib.seqNum, ∃ g ∈ q, g.attrib.seqNum = (startSeq + i) % 4096

/-- What every step does to a window: its start does not go back, what is delivered goes up and
lies between the old start and the new one, and what stays queued goes up inside the window. -/
structure WindowStep.Advances (s : WindowStep) : Prop where
  forward : snOffset s.first s.after.indicateSeq ≤ 2048
  rising : s.out.Pairwise fun f g =>
    snOffset s.first f.attrib.seqNum < snOffset s.first g.attrib.seqNum
  passed : ∀ f ∈ s.out, snOffset s.first f.attrib.seqNum < snOffset s.first s.after.indicateSeq
  sorted : s.after.pendingRecvframeQueue.Pairwise fun f g =>
    snOffset s.after.indicateSeq f.attrib.seqNum < snOffset s.after.indicateSeq g.attrib.seqNum
  within : ∀ f ∈ s.after.pendingRecvframeQueue,
    snOffset s.after.indicateSeq f.attrib.seqNum ≤ s.after.wsizeB - 1

structure WindowStep.Lawful (s : WindowStep) : Prop extends s.Advances where
  alone : ∀ n, s.call = .bar n → s.before.indicateSeq ≠ 0xFFFF → snLess n s.first ∨ n = s.first →
    s.after = s.before ∧ s.out = []
  due : ∀ n, s.call = .bar n → ¬ snLess n s.first →
    ∀ f ∈ s.before.pendingRecvframeQueue, BarDue n s.before.pendingRecvframeQueue f → f ∈ s.out

/-- What a BlockAckReq must find. -/
def WindowStep.NothingDue (s : WindowStep) : Prop :=
  ∀ n, s.call = .bar n → ¬ snLess n s.first ∧
    ∀ f ∈ s.before.pendingRecvframeQueue, snLess n f.attrib.seqNum

def positions (start : ℤ) : List WindowStep → List ℤ
  | [] => []
  | s :: steps =>
    s.out.map (fun f => start + snOffset s.first f.attrib.seqNum) ++
      positions (start + snOffset s.first s.after.indicateSeq) steps

/-- **The laws of a run**: every step is lawful, and no number is delivered twice. -/
structure ReorderLaws (steps : List WindowStep) : Prop where
  lawful : ∀ s ∈ steps, s.Lawful
  once : (positions 0 steps).Pairwise (· < ·)

theorem positions_rising {steps : List WindowStep} (hsteps : ∀ s ∈ steps, s.Lawful) (start : ℤ) :
    (positions start steps).Pairwise (· < ·) ∧ ∀ i ∈ positions start steps, start ≤ i := by
  induction steps generalizing start with
  | nil => simp [positions]
  | cons s steps ih =>
    have hs := hsteps s List.mem_cons_self
    obtain ⟨hrising, hstart⟩ := ih (fun t ht => hsteps t (.tail _ ht))
      (start + snOffset s.first s.after.indicateSeq)
    rw [positions]
    refine ⟨List.pairwise_append.mpr ⟨?_, hrising, fun i hi j hj => ?_⟩, fun i hi => ?_⟩
    · rw [List.pairwise_map]
      exact hs.rising.imp fun hlt => by omega
    · -- the window start separates what this step delivered from what comes later
      obtain ⟨f, hf, rfl⟩ := List.mem_map.mp hi
      have hpassed := hs.passed f hf
      have hlater := hstart j hj
      omega
    · rcases List.mem_append.mp hi with hi | hi
      · obtain ⟨f, hf, rfl⟩ := List.mem_map.mp hi
        omega
      · have hlater := hstart i hi
        omega

/-! ## One step -/

structure RecvReorderCtrl.Kept (w : ℕ) (c : RecvReorderCtrl) : Prop where
  enable : c.enable = true
  wsize : c.wsizeB = w
  ack : c.recvAckOrTimeout = false
  wow : c.recvReorderWow = false
  window : (c.indicateSeq = 0xFFFF ∧ c.pendingRecvframeQueue = []) ∨
    ∃ b : Buffer RecvFrame, Refines c b ∧ b.Sound w 2048 none

/-- A received frame is QoS data with a 12-bit sequence number. -/
def WindowCall.Valid : WindowCall → Prop
  | .recv f => f.attrib.qos = true ∧ f.attrib.seqNum < 4096
  | .bar startSeq => startSeq < 4096
  | _ => True

theorem WindowStep.Advances.of_refines {s : WindowStep} {b b' : Buffer RecvFrame}
    {out : List (ℤ × RecvFrame)} {w : ℕ} (hw : w ≤ 255)
    (hfirst : (s.first : ℤ) = b.next % 4096) (hafter : Refines s.after b')
    (hsound : b'.Sound w 2048 none) (hwsize : s.after.wsizeB = w)
    (hout : s.out = out.map Prod.snd) (hseq : ∀ p ∈ out, (p.2.attrib.seqNum : ℤ) = p.1 % 4096)
    (hsorted : out.Pairwise fun p q => p.1 < q.1)
    (hspan : b.next ≤ b'.next ∧ b'.next ≤ b.next + 2048 ∧
      ∀ p ∈ out, b.next ≤ p.1 ∧ p.1 < b'.next) : s.Advances := by
  obtain ⟨hle, hfar, hbetween⟩ := hspan
  have hnext : (snOffset s.first s.after.indicateSeq : ℤ) = b'.next - b.next :=
    snOffset_eq hfirst hafter.indicate (by omega) (by omega)
  have hoffset : ∀ p ∈ out, (snOffset s.first p.2.attrib.seqNum : ℤ) = p.1 - b.next := by
    intro p hp
    have hp' := hbetween p hp
    exact snOffset_eq hfirst (hseq p hp) (by omega) (by omega)
  obtain ⟨hqueue, hwithin⟩ := hafter.queue_in_window hsound hw
  refine ⟨by omega, ?_, fun f hf => ?_, hqueue, hwsize ▸ hwithin⟩
  · rw [hout, List.pairwise_map]
    refine hsorted.imp_of_mem fun {p q} hp hq hlt => ?_
    have hp := hoffset p hp
    have hq := hoffset q hq
    omega
  · rw [hout] at hf
    obtain ⟨p, hp, rfl⟩ := List.mem_map.mp hf
    have hp' := hbetween p hp
    have hoff := hoffset p hp
    omega

variable {c : RecvReorderCtrl} {w : ℕ}

theorem recv_advances {b : Buffer RecvFrame} {f : RecvFrame} (hc : c.Kept w)
    (hw : 1 ≤ w ∧ w ≤ 255) (hrefines : Refines c b) (hsound : b.Sound w 2048 none)
    (hqos : f.attrib.qos = true) (hf : f.attrib.seqNum < 4096) :
    (c.step (.recv f)).Advances ∧ (c.step (.recv f)).after.Kept w := by
  obtain ⟨henable, hwsize, hack, hwow⟩ := indicatepkt_frame c f
  have hstep : c.step (.recv f) =
      ⟨.recv f, c, (c.indicatepkt f).2.1, (c.indicatepkt f).2.2⟩ := by
    simp [RecvReorderCtrl.step, RecvReorderCtrl.windowCall,
      RecvReorderCtrl.recvIndicatepktReorder, hqos, hc.enable]
  have hfirst : (((c.step (.recv f)).first : ℕ) : ℤ) = b.next % 4096 := by
    have hind := hrefines.indicate
    have hne : c.indicateSeq ≠ 0xFFFF := by omega
    simpa [WindowStep.first, RecvReorderCtrl.step, hne] using hind
  have hn : (f.attrib.seqNum : ℤ) = Serial.unwrap 2048 b.next f.attrib.seqNum % 4096 := by
    have hmod := Serial.unwrap_emod 2048 b.next f.attrib.seqNum
    norm_num at hmod
    omega
  have hlo := Serial.sub_le_unwrap (h := 2048) (by norm_num) b.next f.attrib.seqNum
  have hhi := Serial.unwrap_lt_add (h := 2048) (by norm_num) b.next f.attrib.seqNum
  have hsim := indicatepkt_refines hrefines (hc.wsize.symm ▸ hsound) (hc.wsize.symm ▸ hw)
    hc.ack hc.wow hn hlo hhi
  rw [hc.wsize] at hsim
  rw [hstep] at hfirst ⊢
  cases harrive : b.arrive w (Serial.unwrap 2048 b.next f.attrib.seqNum) f with
  | none =>
    rw [harrive] at hsim
    have hafter : Refines (c.indicatepkt f).2.1 b := by simpa [hsim] using hrefines
    have hnil : (c.indicatepkt f).2.2 = ([] : List (ℤ × RecvFrame)).map Prod.snd := by simp [hsim]
    exact ⟨.of_refines hw.2 hfirst hafter hsound (hwsize.trans hc.wsize) hnil (by simp)
        List.Pairwise.nil ⟨le_refl _, by omega, by simp⟩,
      henable.trans hc.enable, hwsize.trans hc.wsize, hack, hwow, Or.inr ⟨b, hafter, hsound⟩⟩
  | some step =>
    obtain ⟨out, b'⟩ := step
    rw [harrive] at hsim
    obtain ⟨hsteps, hsound'⟩ := hsound.arrive (by omega) (by omega) hhi harrive
    refine ⟨.of_refines hw.2 hfirst hsim.2.1 hsound'.forget (hwsize.trans hc.wsize) hsim.2.2
        (fun p hp => ?_) hsteps.sorted (hsound.arrive_span (by omega) (by omega) hhi harrive),
      henable.trans hc.enable, hwsize.trans hc.wsize, hack, hwow,
      Or.inr ⟨b', hsim.2.1, hsound'.forget⟩⟩
    have hmem := (Buffer.arrive_perm harrive).subset (List.mem_append_left _ hp)
    rcases List.mem_cons.mp hmem with rfl | hmem
    · exact hn
    · exact hrefines.seq p hmem

theorem advances_of_same {s : WindowStep} (hc : c.Kept w) (hw : w ≤ 255)
    (hafter : s.after = c) (hfirst : s.first = c.indicateSeq) (hout : s.out = []) :
    s.Advances := by
  rcases hc.window with ⟨hinit, hqueue⟩ | ⟨b, hrefines, hsound⟩
  · refine ⟨?_, ?_, ?_, ?_, ?_⟩ <;> simp [hout, hafter, hqueue, hfirst, snOffset]
  · have hb : ((s.first : ℕ) : ℤ) = b.next % 4096 := hfirst ▸ hrefines.indicate
    exact @WindowStep.Advances.of_refines s b b [] w hw hb (hafter ▸ hrefines) hsound
      (hafter ▸ hc.wsize)
      (by simpa using hout) (by simp) List.Pairwise.nil ⟨le_refl _, by omega, by simp⟩

theorem recv_step (hc : c.Kept w) (hw : 1 ≤ w ∧ w ≤ 255) {f : RecvFrame}
    (hqos : f.attrib.qos = true) (hf : f.attrib.seqNum < 4096) :
    (c.step (.recv f)).Advances ∧ (c.step (.recv f)).after.Kept w := by
  rcases hc.window with ⟨hinit, hqueue⟩ | ⟨b, hrefines, hsound⟩
  · let c₀ : RecvReorderCtrl := { c with indicateSeq := f.attrib.seqNum }
    let b₀ : Buffer RecvFrame := ⟨f.attrib.seqNum, []⟩
    have hrefines : Refines c₀ b₀ := ⟨by simp only [c₀, b₀]; omega, hqueue, by simp [b₀]⟩
    have hc₀ : c₀.Kept w :=
      ⟨hc.enable, hc.wsize, hc.ack, hc.wow, Or.inr ⟨b₀, hrefines, Buffer.Sound.empty _ _ _⟩⟩
    obtain ⟨hadvances, hkept⟩ :=
      recv_advances hc₀ hw hrefines (Buffer.Sound.empty _ _ _) hqos hf
    have hsame : c.indicatepkt f = c₀.indicatepkt f := indicatepkt_of_init hinit hc.ack hc.wow hf
    have hne : f.attrib.seqNum ≠ 0xFFFF := by omega
    have hcall : c.windowCall (.recv f) = c₀.windowCall (.recv f) := by
      simp [RecvReorderCtrl.windowCall, RecvReorderCtrl.recvIndicatepktReorder, hqos, hc.enable,
        hsame, c₀]
    have hfirst : (c.step (.recv f)).first = (c₀.step (.recv f)).first := by
      simp [WindowStep.first, RecvReorderCtrl.step, hinit, c₀, hne]
    have hafter : (c.step (.recv f)).after = (c₀.step (.recv f)).after := by
      simp only [RecvReorderCtrl.step, hcall]
    have hout : (c.step (.recv f)).out = (c₀.step (.recv f)).out := by
      simp only [RecvReorderCtrl.step, hcall]
    refine ⟨⟨?_, ?_, ?_, ?_, ?_⟩, hafter ▸ hkept⟩
    · rw [hfirst, hafter]
      exact hadvances.forward
    · rw [hfirst, hout]
      exact hadvances.rising
    · rw [hfirst, hafter, hout]
      exact hadvances.passed
    · rw [hafter]
      exact hadvances.sorted
    · rw [hafter]
      exact hadvances.within
  · exact recv_advances hc hw hrefines hsound hqos hf

theorem timeout_step (hc : c.Kept w) (hw : w ≤ 255) :
    (c.step .timeout).Advances ∧ (c.step .timeout).after.Kept w := by
  rcases hc.window with ⟨hinit, hqueue⟩ | ⟨b, hrefines, hsound⟩
  · have hstay : c.timeout = ({ c with bReorderWaiting := false }, []) := timeout_of_nil hqueue
    have hkept : (c.step .timeout).after.Kept w := by
      simp only [RecvReorderCtrl.step, RecvReorderCtrl.windowCall, hstay]
      exact ⟨hc.enable, hc.wsize, hc.ack, hc.wow, Or.inl ⟨hinit, hqueue⟩⟩
    refine ⟨advances_of_same hkept hw rfl ?_ ?_, hkept⟩
    · simp [WindowStep.first, RecvReorderCtrl.step, RecvReorderCtrl.windowCall, hstay, hinit]
    · simp [RecvReorderCtrl.step, RecvReorderCtrl.windowCall, hstay]
  · obtain ⟨hafter, hout⟩ := timeout_refines hrefines (hc.wsize.symm ▸ hsound) (hc.wsize.symm ▸ hw)
    obtain ⟨hsteps, hsound'⟩ := hsound.expire
    have hspan := hsound.expire_span (by omega)
    have hfirst : (((c.step .timeout).first : ℕ) : ℤ) = b.next % 4096 := by
      have hind := hrefines.indicate
      have hne : c.indicateSeq ≠ 0xFFFF := by omega
      simpa [WindowStep.first, RecvReorderCtrl.step, hne] using hind
    refine ⟨.of_refines hw hfirst hafter hsound'.forget hc.wsize hout (fun p hp => ?_)
      hsteps.sorted ⟨hspan.1, by omega, hspan.2.2⟩,
      hc.enable, hc.wsize, hc.ack, hc.wow, Or.inr ⟨b.expire.2, hafter, hsound'.forget⟩⟩
    exact hrefines.seq p (b.expire_append ▸ List.mem_append_left _ hp)

theorem bar_first {b : Buffer RecvFrame} (hrefines : Refines c b) (n : ℕ) :
    (c.step (.bar n)).first = c.indicateSeq := by
  have hind := hrefines.indicate
  have hstart : c.indicateSeq ≠ 0xFFFF := by omega
  simp [WindowStep.first, RecvReorderCtrl.step, hstart]

theorem bar_number {b : Buffer RecvFrame} (hrefines : Refines c b) (hsound : b.Sound w 2048 none)
    (hw : w ≤ 255) {n : ℕ} (hn : n < 4096) (hdue : (c.step (.bar n)).NothingDue) :
    ∃ m : ℤ, (n : ℤ) = m % 4096 ∧ b.next ≤ m ∧ m < b.next + 2048 ∧ ∀ p ∈ b.held, m < p.1 := by
  obtain ⟨hahead, hqueued⟩ := hdue n rfl
  have hind := hrefines.indicate
  rw [bar_first hrefines, snLess_iff] at hahead
  simp only [Serial.Less] at hahead
  have hmn : (n : ℤ) = (b.next + snOffset c.indicateSeq n) % 4096 := by
    simp only [snOffset]
    omega
  have hfar : (snOffset c.indicateSeq n : ℤ) < 2048 := by
    simp only [snOffset]
    omega
  refine ⟨_, hmn, by omega, by omega, fun p hp => ?_⟩
  have hbelow := hsound.ahead p hp
  have hwithin := hsound.within p hp
  have hless := hqueued p.2 (hrefines.queue ▸ List.mem_map_of_mem hp)
  rwa [snLess_iff_lt hmn (hrefines.seq p hp) (by omega) (by omega)] at hless

theorem bar_step (hc : c.Kept w) (hw : w ≤ 255) {n : ℕ} (hn : n < 4096)
    (hdue : (c.step (.bar n)).NothingDue) :
    (c.step (.bar n)).Advances ∧ (c.step (.bar n)).after.Kept w := by
  rcases hc.window with ⟨hinit, hqueue⟩ | ⟨b, hrefines, hsound⟩
  · have hkept : ({ c with indicateSeq := n } : RecvReorderCtrl).Kept w :=
      ⟨hc.enable, hc.wsize, hc.ack, hc.wow, Or.inr ⟨⟨n, []⟩,
        ⟨by show (n : ℤ) = n % 4096; omega, hqueue, by simp⟩, Buffer.Sound.empty _ _ _⟩⟩
    refine ⟨advances_of_same hkept hw rfl ?_ rfl, hkept⟩
    simp [WindowStep.first, RecvReorderCtrl.step, hinit]
  · obtain ⟨m, hmn, hle, hfar, hheld⟩ := bar_number hrefines hsound hw hn hdue
    have hsound' := hsound.moveTo hle hheld
    have hafter : Refines (c.step (.bar n)).after { b with next := m } :=
      ⟨hmn, hrefines.queue, hrefines.seq⟩
    have hfirst : (((c.step (.bar n)).first : ℕ) : ℤ) = b.next % 4096 :=
      bar_first hrefines n ▸ hrefines.indicate
    exact ⟨@WindowStep.Advances.of_refines _ b _ [] w hw hfirst hafter hsound' hc.wsize rfl
        (by simp) List.Pairwise.nil ⟨hle, hfar.le, by simp⟩,
      hc.enable, hc.wsize, hc.ack, hc.wow, Or.inr ⟨_, hafter, hsound'⟩⟩

theorem not_snLess_self (n : ℕ) : ¬ snLess n n := by
  simp [snLess]

theorem not_barDue (hc : c.Kept w) (hw : w ≤ 255) {n : ℕ} (hn : n < 4096)
    (hdue : (c.step (.bar n)).NothingDue) {f : RecvFrame} (hf : f ∈ c.pendingRecvframeQueue) :
    ¬ BarDue n c.pendingRecvframeQueue f := by
  rcases hc.window with ⟨-, hqueue⟩ | ⟨b, hrefines, hsound⟩
  · simp [hqueue] at hf
  · rintro (hbefore | hrun)
    · obtain ⟨m, hmn, hle, hfar, hheld⟩ := bar_number hrefines hsound hw hn hdue
      rw [hrefines.queue] at hf
      obtain ⟨p, hp, rfl⟩ := List.mem_map.mp hf
      have hbelow := hheld p hp
      have hwithin := hsound.within p hp
      rw [snLess_iff_lt (hrefines.seq p hp) hmn (by omega) (by omega)] at hbefore
      omega
    · obtain ⟨g, hg, hgn⟩ := hrun 0 (Nat.zero_le _)
      have hgn' : g.attrib.seqNum = n := by omega
      exact not_snLess_self n (hgn' ▸ (hdue n rfl).2 g hg)

theorem lawful_iff_of_ne_bar {s : WindowStep} (hadvances : s.Advances)
    (hne : ∀ n, s.call ≠ .bar n) : s.Lawful ↔ s.NothingDue :=
  ⟨fun _ n hcall => absurd hcall (hne n), fun _ =>
    ⟨hadvances, fun n hcall => absurd hcall (hne n), fun n hcall => absurd hcall (hne n)⟩⟩

/-- **One step is lawful exactly when a BlockAckReq finds nothing due**, and then the window is
kept. -/
theorem WindowStep.lawful_iff (hc : c.Kept w) (hw : 1 ≤ w ∧ w ≤ 255) {k : WindowCall}
    (hk : k.Valid) :
    ((c.step k).Lawful ↔ (c.step k).NothingDue) ∧
      ((c.step k).NothingDue → (c.step k).after.Kept w) := by
  cases k with
  | recv f =>
    obtain ⟨hadvances, hkept⟩ := recv_step hc hw hk.1 hk.2
    exact ⟨lawful_iff_of_ne_bar hadvances (by simp [RecvReorderCtrl.step]), fun _ => hkept⟩
  | timeout =>
    obtain ⟨hadvances, hkept⟩ := timeout_step hc hw.2
    exact ⟨lawful_iff_of_ne_bar hadvances (by simp [RecvReorderCtrl.step]), fun _ => hkept⟩
  | other =>
    have hfirst : (c.step .other).first = c.indicateSeq := by
      by_cases hinit : c.indicateSeq = 0xFFFF
      · simp [WindowStep.first, RecvReorderCtrl.step, hinit]
      · simp [WindowStep.first, RecvReorderCtrl.step, hinit]
    exact ⟨lawful_iff_of_ne_bar (advances_of_same hc hw.2 rfl hfirst rfl)
      (by simp [RecvReorderCtrl.step]), fun _ => hc⟩
  | bar n =>
    refine ⟨⟨fun hlawful m hcall => ?_, fun hdue => ?_⟩, fun hdue => (bar_step hc hw.2 hk hdue).2⟩
    · cases hcall
      rcases hc.window with ⟨hinit, hqueue⟩ | ⟨b, hrefines, hsound⟩
      · have hfirst : (c.step (.bar n)).first = n := by
          simp [WindowStep.first, RecvReorderCtrl.step, hinit]
        rw [hfirst]
        exact ⟨not_snLess_self n, by simp [RecvReorderCtrl.step, hqueue]⟩
      · have hind := hrefines.indicate
        have hstart : c.indicateSeq ≠ 0xFFFF := by omega
        have hahead : ¬ snLess n (c.step (.bar n)).first := by
          -- a window that went back is not the window it was
          intro hbehind
          have hsame := (hlawful.alone n rfl hstart (Or.inl hbehind)).1
          have hnc : n = c.indicateSeq := congrArg RecvReorderCtrl.indicateSeq hsame
          rw [bar_first hrefines, ← hnc] at hbehind
          exact not_snLess_self n hbehind
        refine ⟨hahead, fun f hf => ?_⟩
        by_contra hless
        have hn : n < 4096 := hk
        have hseq : f.attrib.seqNum < 4096 := by
          have hmem : f ∈ b.held.map Prod.snd := hrefines.queue ▸ hf
          obtain ⟨p, hp, rfl⟩ := List.mem_map.mp hmem
          have hp := hrefines.seq p hp
          omega
        have hdue : BarDue n c.pendingRecvframeQueue f := by
          by_cases heq : f.attrib.seqNum = n
          · refine Or.inr fun i hi => ⟨f, hf, ?_⟩
            have hzero : snOffset n f.attrib.seqNum = 0 := by simp [heq, snOffset]
            omega
          · refine Or.inl ?_
            rw [snLess_iff] at hless ⊢
            simp only [Serial.Less] at hless ⊢
            omega
        exact absurd (hlawful.due n rfl hahead f hf hdue) (by
          simp [RecvReorderCtrl.step, RecvReorderCtrl.windowCall])
    · obtain ⟨hadvances, -⟩ := bar_step hc hw.2 hk hdue
      refine ⟨hadvances, fun m hcall hstart hback => ?_, fun m hcall hahead f hf hbar => ?_⟩
      · cases hcall
        rcases hback with hbehind | heq
        · exact absurd hbehind (hdue n rfl).1
        · have hnc : n = c.indicateSeq := by
            have hne : c.indicateSeq ≠ 0xFFFF := hstart
            simpa [WindowStep.first, RecvReorderCtrl.step, hne] using heq
          subst hnc
          exact ⟨rfl, rfl⟩
      · cases hcall
        exact absurd hbar (not_barDue hc hw.2 hk hdue hf)

/-- The frames of a run are QoS data with 12-bit sequence numbers. -/
def AdapterCall.Valid : AdapterCall → Prop
  | .recv _ f => f.attrib.qos = true ∧ f.attrib.seqNum < 4096
  | _ => True

theorem AdapterCall.Valid.callOn {k : AdapterCall} (hk : k.Valid) (a : Adapter)
    (p : StaId × Tid) : (a.callOn p k).Valid := by
  cases k with
  | recv q f =>
    simp only [Adapter.callOn]
    split
    · exact hk
    · trivial
  | timeout q =>
    simp only [Adapter.callOn]
    split <;> trivial
  | bar pframe =>
    simp only [Adapter.callOn]
    split
    · exact barStartSeq_lt pframe
    · trivial

theorem lawful_steps_iff {a : Adapter} {p : StaId × Tid} (hc : (a.reorder p).Kept w)
    (hw : 1 ≤ w ∧ w ≤ 255) {ks : List AdapterCall} (hks : ∀ k ∈ ks, k.Valid) :
    (∀ s ∈ windowSteps p a ks, s.Lawful) ↔ ∀ s ∈ windowSteps p a ks, s.NothingDue := by
  induction ks generalizing a with
  | nil => simp [windowSteps]
  | cons k ks ih =>
    have hstep : (⟨a.callOn p k, a.reorder p, (a.windowCall k).1.reorder p,
        framesOf p (a.windowCall k).2⟩ : WindowStep) = (a.reorder p).step (a.callOn p k) := by
      have hcall := windowCall_reorder a p k
      simp only [RecvReorderCtrl.step, ← hcall]
    have hvalid := (hks k List.mem_cons_self).callOn a p
    obtain ⟨hiff, hkept⟩ := WindowStep.lawful_iff hc hw hvalid
    simp only [windowSteps, List.forall_mem_cons]
    rw [hstep, hiff]
    refine and_congr_right fun hdue => ih ?_ fun k' hk' => hks k' (.tail _ hk')
    have hafter : ((a.reorder p).step (a.callOn p k)).after = (a.windowCall k).1.reorder p :=
      congrArg WindowStep.after hstep.symm
    exact hafter ▸ hkept hdue

/-- **A run with BlockAckReqs keeps the laws of the reorder window exactly when each of them finds
nothing due**: its starting sequence number is not behind the window start, and every queued frame
is ahead of it. -/
theorem reorderLaws_iff (a : Adapter) (p : StaId × Tid) (ks : List AdapterCall)
    (hw : 1 ≤ (a.reorder p).wsizeB ∧ (a.reorder p).wsizeB ≤ 255)
    (henable : (a.reorder p).enable = true) (hinit : (a.reorder p).indicateSeq = 0xFFFF)
    (hqueue : (a.reorder p).pendingRecvframeQueue = [])
    (hack : (a.reorder p).recvAckOrTimeout = false)
    (hwow : (a.reorder p).recvReorderWow = false) (hks : ∀ k ∈ ks, k.Valid) :
    ReorderLaws (windowSteps p a ks) ↔ ∀ s ∈ windowSteps p a ks, s.NothingDue := by
  have hc : (a.reorder p).Kept (a.reorder p).wsizeB :=
    ⟨henable, rfl, hack, hwow, Or.inl ⟨hinit, hqueue⟩⟩
  rw [← lawful_steps_iff hc hw hks]
  exact ⟨ReorderLaws.lawful, fun hlawful => ⟨hlawful, (positions_rising hlawful 0).1⟩⟩

/-- A station with its reorder windows enabled. -/
def reordering : Adapter :=
  { staHash := [0], sta := fun _ => { recvreorderCtrl := fun _ => { enable := true } } }

/-- A BlockAckReq for TID 0. -/
def barFrame (startSeq : ℕ) : Bytes :=
  List.replicate 18 0 ++ [UInt8.ofNat (16 * startSeq), UInt8.ofNat (startSeq / 16)]

/-- Frame 12 waits for 11, which a BlockAckReq skips without delivering it. -/
theorem reorderLaws_iff_skip :
    let frame (id seq : ℕ) : RecvFrame := { id, attrib := { qos := true, seqNum := seq } }
    let steps := windowSteps (0, 0) reordering
      [.recv (0, 0) (frame 0 10), .bar (barFrame 11), .recv (0, 0) (frame 1 12),
        .bar (barFrame 12)]
    ReorderLaws steps ↔ ∀ s ∈ steps, s.NothingDue :=
  reorderLaws_iff reordering (0, 0) _ (by decide) rfl rfl rfl rfl rfl
    (by simp [AdapterCall.Valid])

/-- **A BlockAckReq moves the window back**, and a frame is delivered twice. -/
theorem bar_delivers_twice :
    let frame (id seq : ℕ) : RecvFrame := { id, attrib := { qos := true, seqNum := seq } }
    let steps := windowSteps (0, 0) reordering
      [.recv (0, 0) (frame 0 10), .bar (barFrame 10), .recv (0, 0) (frame 1 10)]
    ¬ ReorderLaws steps ∧ (steps.flatMap (·.out)).map (·.attrib.seqNum) = [10, 10] := by
  intro frame steps
  refine ⟨fun hlaws => ?_, by decide⟩
  have hback : ∃ s ∈ steps, 2048 < snOffset s.first s.after.indicateSeq :=
    ⟨_, .tail _ (.head _), by decide⟩
  obtain ⟨s, hs, hfar⟩ := hback
  exact absurd (hlaws.lawful s hs).forward (by omega)

end Rtl88x2eu
