import Rtl88x2eu.Lib.Transition
import Rtl88x2eu.Recv.ReorderSafety

/-!
# Reorder windows across Block Ack agreements

A DELBA switches the window off, an ADDBA response or a wake-up has the next frame start it anew;
neither empties `pending_recvframe_queue`. The frames of the old window are right in the new one
only if they happen to lie behind its start, where they are flushed, or inside it.

## Main definitions

* `BaCall`, `BaRun`: what happens to one window, and what it delivers in each agreement
* `BaRun.fits`, `BaRun.Safe`

## Main results

* `baRun_safe`: in runs of such steps queue and deliveries are in order
-/

namespace Rtl88x2eu

open Reordering Transition

structure QosMpdu where
  frame : RecvFrame
  qos : frame.attrib.qos = true
  seqNum : frame.attrib.seqNum < 4096

/-- What happens to a window. -/
inductive BaCall
  /-- A frame in `recv_func_posthandle`. -/
  | recv (m : QosMpdu)
  /-- A frame behind `coop_post_decrypt`. -/
  | coop (m : QosMpdu)
  /-- The reorder timer. -/
  | timeout
  /-- `OnAction_back` gets a DELBA of the originator. -/
  | delba
  /-- `add_ba_rsp_hdl`. -/
  | addBaRsp (status : ℕ)
  /-- The station wakes up. -/
  | wow

/-- A window, the number of its agreement, what was handed to `recv_process_mpdu` in which
agreement, and the frames that were not refused. -/
structure BaRun where
  ctrl : RecvReorderCtrl
  agreement : ℕ := 0
  delivered : List (Option ℕ × RecvFrame) := []
  taken : List RecvFrame := []

def BaRun.indicate (r : BaRun) (f : RecvFrame) (step : Ret × RecvReorderCtrl × List RecvFrame) :
    BaRun :=
  let agreement := if r.ctrl.recvAckOrTimeout then r.agreement + 1 else r.agreement
  let other := fun g : RecvFrame => decide (g.attrib.seqNum ≠ f.attrib.seqNum)
  { ctrl := step.2.1
    agreement
    delivered := r.delivered ++ (step.2.2.takeWhile other).map (some r.agreement, ·) ++
      (step.2.2.dropWhile other).map (some agreement, ·)
    taken := if step.1 = .rxHandled then r.taken ++ [f] else r.taken }

/-- A frame passes a window that is off: `recv_set_iseq_before_mpdu_process` and its counterpart
after move the window. -/
def BaRun.pass (r : BaRun) (f : RecvFrame) (c : RecvReorderCtrl) : BaRun :=
  { r with
    ctrl := { c with indicateSeq := (f.attrib.seqNum + 1) % 4096 }
    delivered := r.delivered ++ [(none, f)]
    taken := r.taken ++ [f] }

def BaRun.call (r : BaRun) : BaCall → BaRun
  | .recv m =>
    let step := r.ctrl.recvIndicatepktReorder m.frame
    if step.1 = .success then r.pass m.frame step.2.1 else r.indicate m.frame step
  | .coop m =>
    let step := r.ctrl.recvIndicatepktReorder m.frame
    -- nobody processes a frame that passes the window here
    if step.1 = .success then { r with ctrl := step.2.1 } else r.indicate m.frame step
  | .timeout =>
    let step := r.ctrl.timeout
    { r with ctrl := step.1, delivered := r.delivered ++ step.2.map (some r.agreement, ·) }
  | .delba => { r with ctrl := { r.ctrl with enable := false } }
  | .addBaRsp status =>
    let enable := if status = 0 then true else if status = 37 then false else r.ctrl.enable
    { r with ctrl := { r.ctrl with recvAckOrTimeout := true, enable } }
  | .wow => { r with ctrl := { r.ctrl with recvReorderWow := true } }

def BaRun.next (r : BaRun) (k : BaCall) : Option BaRun := some (r.call k)

def BaRun.deliveredIn (r : BaRun) (n : ℕ) : List RecvFrame :=
  (r.delivered.filter (·.1 = some n)).map Prod.snd

/-! ## Windows that start anew -/

def RecvReorderCtrl.startsAnew (c : RecvReorderCtrl) : Bool := c.clearAbba.indicateSeq = 0xFFFF

def RecvReorderCtrl.opensOver (c : RecvReorderCtrl) (s : ℕ) (g : RecvFrame) : Bool :=
  snOffset ((s + 1) % 4096) g.attrib.seqNum < c.wsizeB

/-- A queued frame is behind frame `s`, which flushes it. -/
def flushedBy (s : ℕ) (g : RecvFrame) : Bool :=
  g.attrib.seqNum ≠ s && !snLess ((s + 1) % 4096) g.attrib.seqNum

def BaRun.follows (r : BaRun) (s : ℕ) : Bool :=
  match (r.deliveredIn r.agreement).getLast? with
  | none => true
  | some l => 1 ≤ snOffset l.attrib.seqNum s && snOffset l.attrib.seqNum s ≤ 2048

/-- A frame that starts the window anew finds every queued frame behind it or in the window behind
it, and it follows what its agreement delivers. -/
def BaRun.startFits (r : BaRun) (s : ℕ) : Bool :=
  let q := r.ctrl.pendingRecvframeQueue
  q.all (fun g => flushedBy s g || r.ctrl.opensOver s g) &&
    (r.ctrl.recvAckOrTimeout || q.any (fun g => flushedBy s g && !r.ctrl.opensOver s g) ||
      r.follows s)

/-- The frames that were queued suit the window that a step starts. -/
def BaRun.fits (r : BaRun) : BaCall → Bool
  | .recv m =>
    if r.ctrl.enable then !r.ctrl.startsAnew || r.startFits m.frame.attrib.seqNum
    else r.ctrl.pendingRecvframeQueue.all (r.ctrl.opensOver m.frame.attrib.seqNum)
  | .coop m => !r.ctrl.enable || !r.ctrl.startsAnew || r.startFits m.frame.attrib.seqNum
  | _ => true

/-- Each delivery is ahead of the one before it. -/
def Later (fs : List RecvFrame) : Prop :=
  fs.IsChain fun f g =>
    1 ≤ snOffset f.attrib.seqNum g.attrib.seqNum ∧ snOffset f.attrib.seqNum g.attrib.seqNum ≤ 2048

/-- The queue goes up inside the window, each delivery of an agreement is ahead of the one before
it, and every frame that was taken is queued or delivered as often as it was taken. -/
structure BaRun.Safe (r : BaRun) : Prop where
  sorted : r.ctrl.pendingRecvframeQueue.Pairwise fun f g =>
    snOffset r.ctrl.indicateSeq f.attrib.seqNum < snOffset r.ctrl.indicateSeq g.attrib.seqNum
  within : ∀ f ∈ r.ctrl.pendingRecvframeQueue,
    snOffset r.ctrl.indicateSeq f.attrib.seqNum < r.ctrl.wsizeB
  later : ∀ n, Later (r.deliveredIn n)
  once : ∀ f, (r.delivered.map Prod.snd).count f + r.ctrl.pendingRecvframeQueue.count f =
    r.taken.count f

theorem exists_window_start {start w : ℕ} {next : ℤ} {held : List (ℤ × RecvFrame)}
    (hw : w ≤ 255) (hstart : start < 4096)
    (hseq : ∀ p ∈ held, (p.2.attrib.seqNum : ℤ) = p.1 % 4096)
    (hspan : ∀ p ∈ held, next ≤ p.1 ∧ p.1 < next + w)
    (hin : ∀ p ∈ held, snOffset start p.2.attrib.seqNum < w) :
    ∃ next' : ℤ, (start : ℤ) = next' % 4096 ∧ ∀ p ∈ held, next' ≤ p.1 ∧ p.1 < next' + w := by
  cases held with
  | nil => exact ⟨start, by omega, by simp⟩
  | cons p q =>
    have hp := hseq p List.mem_cons_self
    have hpspan := hspan p List.mem_cons_self
    have hpin := hin p List.mem_cons_self
    refine ⟨p.1 - snOffset start p.2.attrib.seqNum, ?_, fun r hr => ?_⟩
    · simp only [snOffset] at hpin ⊢
      omega
    · have hr' := hseq r hr
      have hrspan := hspan r hr
      have hrin := hin r hr
      simp only [snOffset] at hpin hrin ⊢
      omega

theorem exists_restart_number {s w : ℕ} {next : ℤ} {held : List (ℤ × RecvFrame)}
    (hw : 1 ≤ w ∧ w ≤ 255) (hs : s < 4096)
    (hseq : ∀ p ∈ held, (p.2.attrib.seqNum : ℤ) = p.1 % 4096)
    (hspan : ∀ p ∈ held, next ≤ p.1 ∧ p.1 < next + w)
    (hfit : ∀ p ∈ held, flushedBy s p.2 = true ∨
      snOffset ((s + 1) % 4096) p.2.attrib.seqNum < w) :
    ∃ n : ℤ, (s : ℤ) = n % 4096 ∧
      ∀ p ∈ held, p.1 < n ∧ n ≤ p.1 + 2046 ∨ n < p.1 ∧ p.1 ≤ n + w := by
  have hone : ∀ p ∈ held, (p.2.attrib.seqNum ≠ s ∧
      ¬(((s + 1) % 4096 : ℕ) - (p.2.attrib.seqNum : ℤ)) / 2048 % 2 = 1) ∨
        (((p.2.attrib.seqNum : ℤ) - ((s + 1) % 4096 : ℕ)) % 4096).toNat < w := by
    intro p hp
    simpa [flushedBy, snLess, snOffset] using hfit p hp
  cases held with
  | nil => exact ⟨s, by omega, by simp⟩
  | cons p q =>
    have hp := hseq p List.mem_cons_self
    have hpspan := hspan p List.mem_cons_self
    have hpfit := hone p List.mem_cons_self
    have hpn : ∃ n : ℤ, (s : ℤ) = n % 4096 ∧
        (p.1 < n ∧ n ≤ p.1 + 2046 ∨ n < p.1 ∧ p.1 ≤ n + w) := by
      by_cases hin : (((p.2.attrib.seqNum : ℤ) - ((s + 1) % 4096 : ℕ)) % 4096).toNat < w
      · refine ⟨p.1 - 1 - (((p.2.attrib.seqNum : ℤ) - ((s + 1) % 4096 : ℕ)) % 4096), ?_, ?_⟩
        · omega
        · omega
      · refine ⟨p.1 + ((s : ℤ) - p.2.attrib.seqNum) % 4096, ?_, ?_⟩
        · omega
        · omega
    obtain ⟨n, hn, hpn⟩ := hpn
    refine ⟨n, hn, fun r hr => ?_⟩
    have hr' := hseq r hr
    have hrspan := hspan r hr
    have hrfit := hone r hr
    omega

variable {c : RecvReorderCtrl} {b : Buffer RecvFrame} {f : RecvFrame} {w : ℕ} {n : ℤ}

theorem checkIndicateSeq_of_startsAnew (hanew : c.startsAnew) (s : ℕ) :
    checkIndicateSeq c.clearAbba s =
      (true, { c.clearAbba with indicateSeq := (s + 1) % 4096 }) := by
  have hinit : c.clearAbba.indicateSeq = 0xFFFF := of_decide_eq_true hanew
  simp [checkIndicateSeq, hinit, snLess]

/-- **A frame that starts the window anew simulates a restart.** -/
theorem indicatepkt_restart (hw : w ≤ 255) (hanew : c.startsAnew)
    (hqueue : c.pendingRecvframeQueue = b.held.map Prod.snd)
    (hseq : ∀ p ∈ b.held, (p.2.attrib.seqNum : ℤ) = p.1 % 4096)
    (hsorted : b.held.Pairwise fun p r => p.1 < r.1) (hf : (f.attrib.seqNum : ℤ) = n % 4096)
    (hnear : ∀ p ∈ b.held, p.1 < n ∧ n ≤ p.1 + 2046 ∨ n < p.1 ∧ p.1 ≤ n + w) :
    (c.indicatepkt f).1 = .rxHandled ∧ Refines (c.indicatepkt f).2.1 (b.restart n f).2.2 ∧
      (c.indicatepkt f).2.2 = ((b.restart n f).1 ++ (b.restart n f).2.1).map Prod.snd := by
  have hnew : n ∉ b.held.map Prod.fst := by
    intro hn
    obtain ⟨p, hp, rfl⟩ := List.mem_map.mp hn
    have := hnear p hp
    omega
  have hhalf : ∀ p ∈ b.held, -2048 ≤ p.1 - n ∧ p.1 - n < 2048 := by
    intro p hp
    have := hnear p hp
    omega
  have henq := enqueueReorderRecvframe_eq hf hseq hhalf hsorted
  rw [if_neg hnew, ← hqueue] at henq
  have hplaceSeq : ∀ p ∈ place n f b.held, (p.2.attrib.seqNum : ℤ) = p.1 % 4096 := by
    intro p hp
    rcases mem_place.mp hp with rfl | hp
    · exact hf
    · exact hseq p hp
  have hplaceNear : ∀ p ∈ place n f b.held, -2048 ≤ n + 1 - p.1 ∧ n + 1 - p.1 < 2048 := by
    intro p hp
    rcases mem_place.mp hp with rfl | hp
    · simp only
      omega
    · have := hnear p hp
      omega
  have hstart : (((f.attrib.seqNum + 1) % 4096 : ℕ) : ℤ) = (n + 1) % 4096 := by omega
  have hloop := indicateLoop_eq hstart hplaceSeq hplaceNear (place_sorted hsorted hnew)
  rw [Buffer.release_place] at hloop
  rw [RecvReorderCtrl.indicatepkt, checkIndicateSeq_of_startsAnew hanew]
  simp only [if_true, clearAbba_queue, henq, recvIndicatepktsInOrder, Bool.false_eq_true, if_false]
  refine ⟨trivial, ⟨hloop.1, hloop.2.2, fun p hp => hplaceSeq p ?_⟩, hloop.2.1⟩
  have happend := release_append (n + 1) (place n f b.held)
  rw [Buffer.release_place] at happend
  exact happend ▸ List.mem_append_right _ hp

/-! ## The invariant -/

structure BaRun.Window (r : BaRun) (w : ℕ) (b : Buffer RecvFrame) (out : List (ℤ × RecvFrame)) :
    Prop where
  queue : r.ctrl.pendingRecvframeQueue = b.held.map Prod.snd
  seq : ∀ p ∈ b.held, (p.2.attrib.seqNum : ℤ) = p.1 % 4096
  current : r.deliveredIn r.agreement = out.map Prod.snd
  outSeq : ∀ p ∈ out, (p.2.attrib.seqNum : ℤ) = p.1 % 4096
  steps : Steps 2048 none out
  waits : b.Waits w 2048 (lastOf none out)
  indicate : (r.ctrl.indicateSeq : ℤ) = b.next % 4096 ∨
    r.ctrl.indicateSeq = 0xFFFF ∧ r.ctrl.pendingRecvframeQueue = []
  sound : r.ctrl.enable → r.ctrl.startsAnew = false → b.Sound w 2048 (lastOf none out)

/-- What every step keeps. -/
structure BaRun.Inv (w : ℕ) (r : BaRun) : Prop where
  wsize : r.ctrl.wsizeB = w
  window : ∃ b out, r.Window w b out
  tags : ∀ n, r.agreement < n → r.deliveredIn n = []
  later : ∀ n, n ≠ r.agreement → Later (r.deliveredIn n)
  kept : (r.delivered.map Prod.snd ++ r.ctrl.pendingRecvframeQueue).Perm r.taken

theorem later_of_steps {out : List (ℤ × RecvFrame)} {last : Option ℤ} (hsteps : Steps 2048 last out)
    (hseq : ∀ p ∈ out, (p.2.attrib.seqNum : ℤ) = p.1 % 4096) : Later (out.map Prod.snd) := by
  unfold Later
  rw [List.isChain_map]
  have hchain : out.IsChain fun p q => p.1 < q.1 ∧ q.1 ≤ p.1 + 2048 := by
    simpa [Steps, List.isChain_map] using hsteps.of_none
  refine hchain.imp_of_mem_imp fun p q hp hq hpq => ?_
  have hoffset := snOffset_eq (hseq p hp) (hseq q hq) (by omega) (by omega)
  omega

theorem filter_tag (l : List RecvFrame) (t : Option ℕ) (n : ℕ) :
    ((l.map (t, ·)).filter (·.1 = some n)).map Prod.snd = if t = some n then l else [] := by
  induction l with
  | nil => simp
  | cons f l ih =>
    by_cases ht : t = some n
    · simp_all
    · simp_all

theorem startsAnew_iff (c : RecvReorderCtrl) :
    c.startsAnew ↔ c.recvAckOrTimeout ∨ c.recvReorderWow ∨ c.indicateSeq = 0xFFFF := by
  unfold RecvReorderCtrl.startsAnew RecvReorderCtrl.clearAbba
  cases c.recvAckOrTimeout <;> cases c.recvReorderWow <;> simp

variable {r r' : BaRun} {out out' : List (ℤ × RecvFrame)} {b' : Buffer RecvFrame}

theorem deliveredIn_append {fs : List RecvFrame} {t : Option ℕ}
    (h : r'.delivered = r.delivered ++ fs.map (t, ·)) (n : ℕ) :
    r'.deliveredIn n = r.deliveredIn n ++ if t = some n then fs else [] := by
  rw [BaRun.deliveredIn, h, List.filter_append, List.map_append, filter_tag]
  rfl

/-- Deliveries of the agreement that lasts extend it. -/
theorem BaRun.Inv.extend (hr : r.Inv w) (hwin : r.Window w b out) (hwsize : r'.ctrl.wsizeB = w)
    (hagreement : r'.agreement = r.agreement)
    (hdel : r'.delivered = r.delivered ++ (out'.map Prod.snd).map (some r.agreement, ·))
    (hseq : ∀ p ∈ out', (p.2.attrib.seqNum : ℤ) = p.1 % 4096)
    (hsteps : Steps 2048 (lastOf none out) out') (hrefines : Refines r'.ctrl b')
    (hwaits : b'.Waits w 2048 (lastOf (lastOf none out) out'))
    (hsound : r'.ctrl.enable → r'.ctrl.startsAnew = false →
      b'.Sound w 2048 (lastOf (lastOf none out) out'))
    (hkept : (r'.delivered.map Prod.snd ++ r'.ctrl.pendingRecvframeQueue).Perm r'.taken) :
    r'.Inv w := by
  have hother : ∀ n, n ≠ r.agreement → r'.deliveredIn n = r.deliveredIn n := by
    intro n hn
    rw [deliveredIn_append hdel, if_neg (by simpa using hn.symm), List.append_nil]
  refine ⟨hwsize, ⟨b', out ++ out', ⟨hrefines.queue, hrefines.seq, ?_, ?_, ?_, ?_,
    Or.inl hrefines.indicate, ?_⟩⟩, fun n hn => ?_, fun n hn => ?_, hkept⟩
  · rw [hagreement, deliveredIn_append hdel, if_pos rfl, hwin.current, List.map_append]
  · intro p hp
    rcases List.mem_append.mp hp with hp | hp
    · exact hwin.outSeq p hp
    · exact hseq p hp
  · exact steps_append.mpr ⟨hwin.steps, hsteps⟩
  · rwa [lastOf_append]
  · rwa [lastOf_append]
  · rw [hagreement] at hn
    rw [hother n hn.ne']
    exact hr.tags n hn
  · rw [hagreement] at hn
    rw [hother n hn]
    exact hr.later n hn

theorem BaRun.Inv.renew (hr : r.Inv w) (hwin : r.Window w b out) (hwsize : r'.ctrl.wsizeB = w)
    (hagreement : r'.agreement = r.agreement + 1) {old new : List (ℤ × RecvFrame)}
    (hdel : r'.delivered = r.delivered ++ (old.map Prod.snd).map (some r.agreement, ·) ++
      (new.map Prod.snd).map (some (r.agreement + 1), ·))
    (holdSeq : ∀ p ∈ old, (p.2.attrib.seqNum : ℤ) = p.1 % 4096)
    (hnewSeq : ∀ p ∈ new, (p.2.attrib.seqNum : ℤ) = p.1 % 4096)
    (hold : Steps 2048 (lastOf none out) old) (hnew : Steps 2048 none new)
    (hrefines : Refines r'.ctrl b') (hsound : b'.Sound w 2048 (lastOf none new))
    (hkept : (r'.delivered.map Prod.snd ++ r'.ctrl.pendingRecvframeQueue).Perm r'.taken) :
    r'.Inv w := by
  have hin : ∀ n, r'.deliveredIn n = r.deliveredIn n ++
      (if r.agreement = n then old.map Prod.snd else []) ++
      (if r.agreement + 1 = n then new.map Prod.snd else []) := by
    intro n
    simp only [BaRun.deliveredIn, hdel, List.filter_append, List.map_append, filter_tag,
      Option.some.injEq]
  refine ⟨hwsize, ⟨b', new, ⟨hrefines.queue, hrefines.seq, ?_, hnewSeq, hnew, hsound.waits,
    Or.inl hrefines.indicate, fun _ _ => hsound⟩⟩, fun n hn => ?_, fun n hn => ?_, hkept⟩
  · rw [hagreement, hin, hr.tags _ (Nat.lt_succ_self _)]
    simp
  · rw [hagreement] at hn
    have hold' : ¬r.agreement = n := by omega
    have hnew' : ¬r.agreement + 1 = n := by omega
    rw [hin, hr.tags n (by omega), if_neg hold', if_neg hnew']
    rfl
  · have hnew' : ¬r.agreement + 1 = n := fun h => hn (h ▸ hagreement.symm)
    rw [hin, if_neg hnew', List.append_nil]
    by_cases hn' : r.agreement = n
    · subst hn'
      rw [if_pos rfl, hwin.current, ← List.map_append]
      refine later_of_steps (steps_append.mpr ⟨hwin.steps, hold⟩) fun p hp => ?_
      rcases List.mem_append.mp hp with hp | hp
      · exact hwin.outSeq p hp
      · exact holdSeq p hp
    · rw [if_neg hn', List.append_nil]
      exact hr.later n (Ne.symm hn')

theorem BaRun.Inv.of_same (hr : r.Inv w) (hwsize : r'.ctrl.wsizeB = r.ctrl.wsizeB)
    (hagreement : r'.agreement = r.agreement) (hdel : r'.delivered = r.delivered)
    (htaken : r'.taken = r.taken)
    (hqueue : r'.ctrl.pendingRecvframeQueue = r.ctrl.pendingRecvframeQueue)
    (hind : r'.ctrl.indicateSeq = r.ctrl.indicateSeq)
    (hon : r'.ctrl.enable → r'.ctrl.startsAnew = false →
      r.ctrl.enable ∧ r.ctrl.startsAnew = false) : r'.Inv w := by
  obtain ⟨b, out, hwin⟩ := hr.window
  have hin : ∀ n, r'.deliveredIn n = r.deliveredIn n := fun n => by simp [BaRun.deliveredIn, hdel]
  refine ⟨hwsize.trans hr.wsize, ⟨b, out, ⟨hqueue ▸ hwin.queue, hwin.seq, ?_, hwin.outSeq,
    hwin.steps, hwin.waits, ?_, fun henable hnew => ?_⟩⟩, fun n hn => ?_, fun n hn => ?_, ?_⟩
  · rw [hin, hagreement]
    exact hwin.current
  · rw [hind, hqueue]
    exact hwin.indicate
  · obtain ⟨henable, hnew⟩ := hon henable hnew
    exact hwin.sound henable hnew
  · rw [hin]
    exact hr.tags n (hagreement ▸ hn)
  · rw [hin]
    exact hr.later n (hagreement ▸ hn)
  · rw [hdel, hqueue, htaken]
    exact hr.kept

theorem BaRun.Inv.call_delba (hr : r.Inv w) : (r.call .delba).Inv w :=
  hr.of_same rfl rfl rfl rfl rfl rfl nofun

theorem BaRun.Inv.call_addBaRsp (hr : r.Inv w) (status : ℕ) :
    (r.call (.addBaRsp status)).Inv w := by
  refine hr.of_same rfl rfl rfl rfl rfl rfl fun _ hnew => ?_
  have hanew := (startsAnew_iff (r.call (.addBaRsp status)).ctrl).mpr (Or.inl rfl)
  simp [hnew] at hanew

theorem BaRun.Inv.call_wow (hr : r.Inv w) : (r.call .wow).Inv w := by
  refine hr.of_same rfl rfl rfl rfl rfl rfl fun _ hnew => ?_
  have hanew := (startsAnew_iff (r.call .wow).ctrl).mpr (Or.inr (Or.inl rfl))
  simp [hnew] at hanew

theorem BaRun.Inv.call_timeout (hr : r.Inv w) (hw : w ≤ 255) : (r.call .timeout).Inv w := by
  obtain ⟨b, out, hwin⟩ := hr.window
  by_cases hheld : b.held = []
  · have hqueue : r.ctrl.pendingRecvframeQueue = [] := by simp [hwin.queue, hheld]
    have hcall : r.call .timeout = { r with ctrl := { r.ctrl with bReorderWaiting := false } } := by
      simp [BaRun.call, timeout_of_nil hqueue]
    rw [hcall]
    exact hr.of_same rfl rfl rfl rfl rfl rfl fun henable hnew => ⟨henable, hnew⟩
  · have hspan : ∀ p ∈ b.held, ∀ q ∈ b.held, -2048 ≤ p.1 - q.1 ∧ p.1 - q.1 < 2048 := by
      intro p hp q hq
      have := hwin.waits.within p hp
      have := hwin.waits.within q hq
      omega
    obtain ⟨hrefines, hout⟩ :=
      timeout_of_queue hwin.queue hwin.seq hwin.waits.steps.sorted hspan hheld
    obtain ⟨hsteps, hwaits⟩ := hwin.waits.expire
    have hseq : ∀ p ∈ b.expire.1, (p.2.attrib.seqNum : ℤ) = p.1 % 4096 := fun p hp =>
      hwin.seq p (b.expire_append ▸ List.mem_append_left _ hp)
    refine hr.extend hwin hr.wsize rfl (by simp [BaRun.call, hout]) hseq hsteps hrefines hwaits
      (fun henable hnew => ?_) ?_
    · have hnonempty : r.ctrl.pendingRecvframeQueue ≠ [] := by simpa [hwin.queue] using hheld
      have hold : r.ctrl.startsAnew = false := by
        refine Bool.eq_false_iff.mpr fun hanew => ?_
        obtain hack | hwow | hinit := (startsAnew_iff _).mp hanew
        · have hanew' := (startsAnew_iff (r.call .timeout).ctrl).mpr (Or.inl hack)
          simp [hnew] at hanew'
        · have hanew' := (startsAnew_iff (r.call .timeout).ctrl).mpr (Or.inr (Or.inl hwow))
          simp [hnew] at hanew'
        · rcases hwin.indicate with hind | ⟨-, hnil⟩
          · omega
          · exact hnonempty hnil
      exact (hwin.sound henable hold).expire.2
    · have hsplit := timeout_append r.ctrl
      show ((r.delivered ++ r.ctrl.timeout.2.map _).map Prod.snd ++
        r.ctrl.timeout.1.pendingRecvframeQueue).Perm r.taken
      simp only [List.map_append, List.map_map, Function.comp_def, List.map_id', List.append_assoc]
      rw [hsplit]
      exact hr.kept

theorem recvIndicatepktReorder_off (henable : c.enable = false) (f : RecvFrame) :
    c.recvIndicatepktReorder f = (.success, c, []) := by
  simp [RecvReorderCtrl.recvIndicatepktReorder, henable]

theorem recvIndicatepktReorder_on (henable : c.enable) (m : QosMpdu) :
    c.recvIndicatepktReorder m.frame = c.indicatepkt m.frame := by
  simp [RecvReorderCtrl.recvIndicatepktReorder, henable, m.qos]

theorem BaRun.Inv.pass (hr : r.Inv w) (hw : w ≤ 255) (m : QosMpdu)
    (henable : r.ctrl.enable = false)
    (hfits : r.ctrl.pendingRecvframeQueue.all (r.ctrl.opensOver m.frame.attrib.seqNum)) :
    (r.pass m.frame r.ctrl).Inv w := by
  obtain ⟨b, out, hwin⟩ := hr.window
  have hdel : (r.pass m.frame r.ctrl).delivered = r.delivered ++ [m.frame].map (none, ·) := rfl
  have hin : ∀ n, (r.pass m.frame r.ctrl).deliveredIn n = r.deliveredIn n := by
    intro n
    rw [deliveredIn_append hdel, if_neg (by simp), List.append_nil]
  have hopen : ∀ p ∈ b.held,
      snOffset ((m.frame.attrib.seqNum + 1) % 4096) p.2.attrib.seqNum < w := by
    intro p hp
    have hmem : p.2 ∈ r.ctrl.pendingRecvframeQueue := by
      rw [hwin.queue]
      exact List.mem_map_of_mem hp
    have hq := List.all_eq_true.mp hfits _ hmem
    rw [← hr.wsize]
    exact of_decide_eq_true hq
  obtain ⟨next, hnext, hwithin⟩ := exists_window_start hw (Nat.mod_lt _ (by norm_num)) hwin.seq
    hwin.waits.within hopen
  refine ⟨hr.wsize, ⟨⟨next, b.held⟩, out, ⟨hwin.queue, hwin.seq, (hin _).trans hwin.current,
    hwin.outSeq, hwin.steps, ⟨hwin.waits.steps, hwithin⟩, Or.inl hnext, fun hon => ?_⟩⟩,
    fun n hn => (hin n).trans (hr.tags n hn), fun n hn => (hin n).symm ▸ hr.later n hn, ?_⟩
  · have hoff : (r.pass m.frame r.ctrl).ctrl.enable = false := henable
    simp [hoff] at hon
  · show ((r.delivered ++ [(none, m.frame)]).map Prod.snd ++ r.ctrl.pendingRecvframeQueue).Perm
      (r.taken ++ [m.frame])
    rw [List.map_append, List.append_assoc]
    have hmid := @List.perm_middle _ m.frame (r.delivered.map Prod.snd) r.ctrl.pendingRecvframeQueue
    exact hmid.trans ((hr.kept.cons m.frame).trans
      (List.perm_append_singleton m.frame r.taken).symm)

theorem indicate_kept (hr : r.Inv w) (f : RecvFrame) :
    ((r.indicate f (r.ctrl.indicatepkt f)).delivered.map Prod.snd ++
      (r.ctrl.indicatepkt f).2.1.pendingRecvframeQueue).Perm
        (r.indicate f (r.ctrl.indicatepkt f)).taken := by
  have hdel : (r.indicate f (r.ctrl.indicatepkt f)).delivered.map Prod.snd =
      r.delivered.map Prod.snd ++ (r.ctrl.indicatepkt f).2.2 := by
    simp [BaRun.indicate, Function.comp_def, List.takeWhile_append_dropWhile]
  rw [hdel, List.append_assoc]
  rcases indicatepkt_cases r.ctrl f with ⟨hret, hout, hqueue⟩ | ⟨hret, hperm⟩
  · simpa [BaRun.indicate, hret, hout, hqueue] using hr.kept
  · simp only [BaRun.indicate, hret, if_true]
    have hmid := (hperm.append_left (r.delivered.map Prod.snd)).trans List.perm_middle
    exact hmid.trans ((hr.kept.cons f).trans (List.perm_append_singleton f r.taken).symm)

theorem indicate_delivered (hack : r.ctrl.recvAckOrTimeout = false) (f : RecvFrame)
    (step : Ret × RecvReorderCtrl × List RecvFrame) :
    (r.indicate f step).delivered = r.delivered ++ step.2.2.map (some r.agreement, ·) := by
  simp [BaRun.indicate, hack, ← List.map_append, List.takeWhile_append_dropWhile]

theorem BaRun.Inv.indicate_live (hr : r.Inv w) (hw : 1 ≤ w ∧ w ≤ 255) (m : QosMpdu)
    (henable : r.ctrl.enable) (hlive : r.ctrl.startsAnew = false) :
    (r.indicate m.frame (r.ctrl.indicatepkt m.frame)).Inv w := by
  obtain ⟨b, out, hwin⟩ := hr.window
  have hnot : ¬(r.ctrl.recvAckOrTimeout ∨ r.ctrl.recvReorderWow ∨ r.ctrl.indicateSeq = 0xFFFF) := by
    rw [← startsAnew_iff, hlive]
    simp
  simp only [not_or, Bool.not_eq_true] at hnot
  obtain ⟨hack, hwow, hinit⟩ := hnot
  have hind : (r.ctrl.indicateSeq : ℤ) = b.next % 4096 :=
    hwin.indicate.resolve_right fun h => hinit h.1
  have hsound := hwin.sound henable hlive
  have hrefines : Refines r.ctrl b := ⟨hind, hwin.queue, hwin.seq⟩
  have hsound' : b.Sound r.ctrl.wsizeB 2048 (lastOf none out) := hr.wsize ▸ hsound
  have hf := m.seqNum
  have hn : (m.frame.attrib.seqNum : ℤ) =
      Serial.unwrap 2048 b.next m.frame.attrib.seqNum % 4096 := by
    have hmod := Serial.unwrap_emod 2048 b.next m.frame.attrib.seqNum
    norm_num at hmod
    omega
  have hlo := @Serial.sub_le_unwrap 2048 (by norm_num) b.next m.frame.attrib.seqNum
  have hhi := @Serial.unwrap_lt_add 2048 (by norm_num) b.next m.frame.attrib.seqNum
  have hsim := indicatepkt_refines hrefines hsound' (hr.wsize.symm ▸ hw) hack hwow hn hlo hhi
  have hdel := indicate_delivered hack m.frame (r.ctrl.indicatepkt m.frame)
  have hkept := indicate_kept hr m.frame
  obtain ⟨henable', hwsize', -, -⟩ := indicatepkt_frame r.ctrl m.frame
  have hagreement : (r.indicate m.frame (r.ctrl.indicatepkt m.frame)).agreement = r.agreement := by
    simp [BaRun.indicate, hack]
  cases harrive : b.arrive r.ctrl.wsizeB
    (Serial.unwrap 2048 b.next m.frame.attrib.seqNum) m.frame with
  | none =>
    rw [harrive] at hsim
    have hout : (r.ctrl.indicatepkt m.frame).2.2 = [] := by simp [hsim]
    have hctrl : (r.indicate m.frame (r.ctrl.indicatepkt m.frame)).ctrl = r.ctrl := by
      simp [BaRun.indicate, hsim]
    refine hr.of_same (by rw [hctrl]) hagreement (by simp [hdel, hout]) ?_ (by rw [hctrl])
      (by rw [hctrl]) (by rw [hctrl]; exact fun h h' => ⟨h, h'⟩)
    simp [BaRun.indicate, hsim]
  | some step =>
    obtain ⟨out', b'⟩ := step
    rw [harrive] at hsim
    obtain ⟨hsteps', hb'⟩ := hsound'.arrive (by rw [hr.wsize]; omega) (by rw [hr.wsize]; omega) hhi
      harrive
    rw [hr.wsize] at hb'
    refine hr.extend hwin (hwsize'.trans hr.wsize) hagreement (by rw [hdel, hsim.2.2]) ?_ hsteps'
      hsim.2.1 hb'.waits (fun _ _ => hb') hkept
    intro p hp
    have hmem := (Buffer.arrive_perm harrive).subset (List.mem_append_left _ hp)
    rcases List.mem_cons.mp hmem with rfl | hmem
    · exact hn
    · exact hwin.seq p hmem

/-- What `BaRun.startFits` asks of the queue, for the numbers behind it. -/
theorem BaRun.Window.fits (hwin : r.Window w b out) (hwsize : r.ctrl.wsizeB = w) {s : ℕ}
    (hfit : r.startFits s) : ∀ p ∈ b.held, flushedBy s p.2 = true ∨
      snOffset ((s + 1) % 4096) p.2.attrib.seqNum < w := by
  intro p hp
  have hmem : p.2 ∈ r.ctrl.pendingRecvframeQueue := by
    rw [hwin.queue]
    exact List.mem_map_of_mem hp
  have hall := (Bool.and_eq_true_iff.mp hfit).1
  have hq := List.all_eq_true.mp hall _ hmem
  rw [← hwsize]
  simpa [RecvReorderCtrl.opensOver] using hq

/-- A frame that follows what its agreement delivered has a number behind the last delivery. -/
theorem BaRun.Window.follows (hwin : r.Window w b out) {s : ℕ} (hfollows : r.follows s) :
    ∀ p, out.getLast? = some p →
      1 ≤ ((s : ℤ) - p.1) % 4096 ∧ ((s : ℤ) - p.1) % 4096 ≤ 2048 := by
  intro p hp
  have hlast : (r.deliveredIn r.agreement).getLast? = some p.2 := by
    rw [hwin.current, List.getLast?_map, hp]
    rfl
  have hseq := hwin.outSeq p (List.mem_of_getLast? hp)
  have hoffset : 1 ≤ snOffset p.2.attrib.seqNum s ∧ snOffset p.2.attrib.seqNum s ≤ 2048 := by
    simpa only [BaRun.follows, hlast, Bool.and_eq_true, decide_eq_true_eq] using hfollows
  simp only [snOffset] at hoffset
  omega

theorem BaRun.Window.exists_number (hwin : r.Window w b out) (hw : 1 ≤ w ∧ w ≤ 255)
    (hwsize : r.ctrl.wsizeB = w) (hf : f.attrib.seqNum < 4096)
    (hfit : r.startFits f.attrib.seqNum) :
    ∃ n : ℤ, (f.attrib.seqNum : ℤ) = n % 4096 ∧
      (∀ p ∈ b.held, p.1 < n ∧ n ≤ p.1 + 2046 ∨ n < p.1 ∧ p.1 ≤ n + w) ∧
      (r.ctrl.recvAckOrTimeout = false →
        ∀ l ∈ lastOf (lastOf none out) (b.restart n f).1, l < n ∧ n ≤ l + 2048) := by
  have hheld := hwin.fits hwsize hfit
  have hlastOut : ∀ l ∈ lastOf none out, ∃ p, out.getLast? = some p ∧ p.1 = l := by
    intro l hl
    simpa [lastOf] using hl
  cases hq : b.held with
  | nil =>
    -- the number is the next one with this residue
    have hfollows : r.ctrl.recvAckOrTimeout = false → r.follows f.attrib.seqNum := by
      intro hack
      have hnil : r.ctrl.pendingRecvframeQueue = [] := by simp [hwin.queue, hq]
      simpa [BaRun.startFits, hnil, hack] using hfit
    cases hlast : out.getLast? with
    | none =>
      refine ⟨f.attrib.seqNum, by omega, by simp, fun _ l hl => ?_⟩
      obtain ⟨p, hp, -⟩ := hlastOut l (by simpa [Buffer.restart, hq] using hl)
      simp [hp] at hlast
    | some p =>
      have hp := hwin.outSeq p (List.mem_of_getLast? hlast)
      refine ⟨p.1 + ((f.attrib.seqNum : ℤ) - p.1) % 4096, by omega, by simp, fun hack l hl => ?_⟩
      obtain ⟨p', hp', rfl⟩ := hlastOut l (by simpa [Buffer.restart, hq] using hl)
      obtain rfl : p = p' := Option.some.inj (hlast.symm.trans hp')
      have hfoll := hwin.follows (hfollows hack) p hlast
      omega
  | cons a q =>
    obtain ⟨n, hn, hnear⟩ := exists_restart_number hw hf hwin.seq hwin.waits.within hheld
    refine ⟨n, hn, hq ▸ hnear, fun hack l hl => ?_⟩
    have ha : a ∈ b.held := by simp [hq]
    by_cases hlower : a.1 < n
    · -- the last frame that is flushed comes before
      have hmem : ∃ p ∈ b.held, p.1 < n ∧ p.1 = l := by
        have hne : (b.restart n f).1 ≠ [] := by simp [Buffer.restart, hq, hlower]
        obtain ⟨p, hp⟩ := List.getLast?_isSome.mpr hne |> Option.isSome_iff_exists.mp
        have hpl : p.1 = l := by simpa [lastOf, hp] using hl
        have hptake := List.mem_of_getLast? hp
        refine ⟨p, List.takeWhile_sublist _ |>.subset hptake, ?_, hpl⟩
        simpa using List.all_eq_true.mp List.all_takeWhile p hptake
      obtain ⟨p, hp, hlt, rfl⟩ := hmem
      have := hnear p hp
      omega
    · -- nothing is flushed, so the frame follows the last delivery
      have hbefore := (steps_cons.mp (hq ▸ hwin.waits.steps)).1
      have hsorted := hwin.waits.steps.sorted
      have hahead : ∀ p ∈ b.held, n < p.1 ∧ p.1 ≤ n + w := by
        intro p hp
        have := hnear p hp
        have := hnear a ha
        rw [hq] at hp hsorted
        rcases List.mem_cons.mp hp with rfl | hp
        · omega
        · have := List.rel_of_pairwise_cons hsorted hp
          omega
      have hopen : ∀ g ∈ r.ctrl.pendingRecvframeQueue, r.ctrl.opensOver f.attrib.seqNum g := by
        intro g hg
        rw [hwin.queue] at hg
        obtain ⟨p, hp, rfl⟩ := List.mem_map.mp hg
        have := hahead p hp
        have := hwin.seq p hp
        simp only [RecvReorderCtrl.opensOver, snOffset, hwsize, decide_eq_true_eq]
        omega
      have hfollows : r.follows f.attrib.seqNum := by
        have hno : r.ctrl.pendingRecvframeQueue.any (fun g => flushedBy f.attrib.seqNum g &&
            !r.ctrl.opensOver f.attrib.seqNum g) = false := by
          rw [List.any_eq_false]
          intro g hg
          simp [hopen g hg]
        simpa [BaRun.startFits, hack, hno] using (Bool.and_eq_true_iff.mp hfit).2
      obtain ⟨p, hp, rfl⟩ := hlastOut l (by simpa [Buffer.restart, hq, hlower] using hl)
      have := hbefore p.1 (by simp [lastOf, hp])
      have := hahead a ha
      have := hwin.follows hfollows p hp
      omega

theorem BaRun.Inv.indicate_anew (hr : r.Inv w) (hw : 1 ≤ w ∧ w ≤ 255) (m : QosMpdu)
    (hanew : r.ctrl.startsAnew) (hfit : r.startFits m.frame.attrib.seqNum) :
    (r.indicate m.frame (r.ctrl.indicatepkt m.frame)).Inv w := by
  obtain ⟨b, out, hwin⟩ := hr.window
  obtain ⟨n, hn, hnear, hlast⟩ := hwin.exists_number hw hr.wsize m.seqNum hfit
  obtain ⟨hret, hrefines, hout⟩ := indicatepkt_restart hw.2 hanew hwin.queue hwin.seq
    hwin.waits.steps.sorted hn hnear
  have hnew : n ∉ b.held.map Prod.fst := by
    intro hmem
    obtain ⟨p, hp, rfl⟩ := List.mem_map.mp hmem
    have := hnear p hp
    omega
  obtain ⟨hlower, hupper, hsound⟩ := @Buffer.Waits.restart _ w 2048 n m.frame _ b hwin.waits
    (by omega) (by omega) hnew fun p hp => by have := hnear p hp; omega
  have hlowerSeq : ∀ p ∈ (b.restart n m.frame).1,
      (p.2.attrib.seqNum : ℤ) = p.1 % 4096 ∧ p.2.attrib.seqNum ≠ m.frame.attrib.seqNum := by
    intro p hp
    have hmem := (List.takeWhile_sublist _).subset hp
    have hseq := hwin.seq p hmem
    have := hnear p hmem
    exact ⟨hseq, by omega⟩
  have hupperSeq : ∀ p ∈ (b.restart n m.frame).2.1, (p.2.attrib.seqNum : ℤ) = p.1 % 4096 := by
    intro p hp
    rcases List.mem_cons.mp hp with rfl | hp
    · exact hn
    · have happend := release_append (n + 1) (b.held.dropWhile (·.1 < n))
      have hmem : p ∈ b.held.dropWhile (·.1 < n) := happend ▸ List.mem_append_left _ hp
      exact hwin.seq p ((List.dropWhile_sublist _).subset hmem)
  have hkept := indicate_kept hr m.frame
  have hwsize' := (indicatepkt_frame r.ctrl m.frame).2.1.trans hr.wsize
  cases hack : r.ctrl.recvAckOrTimeout with
  | false =>
    -- the agreement goes on
    have hdel := indicate_delivered hack m.frame (r.ctrl.indicatepkt m.frame)
    rw [hout] at hdel
    have hsteps := Buffer.restart_steps hlower hupper (hlast hack)
    have hlastOf : lastOf (lastOf none out) ((b.restart n m.frame).1 ++ (b.restart n m.frame).2.1) =
        lastOf none (b.restart n m.frame).2.1 := by
      rw [lastOf_append]
      simp [Buffer.restart]
    refine hr.extend hwin hwsize' (by simp [BaRun.indicate, hack]) hdel ?_ hsteps hrefines
      (hlastOf ▸ hsound.waits) (fun _ _ => hlastOf ▸ hsound) hkept
    intro p hp
    rcases List.mem_append.mp hp with hp | hp
    · exact (hlowerSeq p hp).1
    · exact hupperSeq p hp
  | true =>
    -- a new agreement; what is flushed belongs to the one before
    have hother : ∀ g ∈ (b.restart n m.frame).1.map Prod.snd,
        decide (g.attrib.seqNum ≠ m.frame.attrib.seqNum) = true := by
      intro g hg
      obtain ⟨p, hp, rfl⟩ := List.mem_map.mp hg
      exact decide_eq_true (hlowerSeq p hp).2
    have hdel : (r.indicate m.frame (r.ctrl.indicatepkt m.frame)).delivered =
        r.delivered ++ ((b.restart n m.frame).1.map Prod.snd).map (some r.agreement, ·) ++
          ((b.restart n m.frame).2.1.map Prod.snd).map (some (r.agreement + 1), ·) := by
      simp only [BaRun.indicate, hack, if_true, hout, List.map_append,
        List.takeWhile_append_of_pos hother, List.dropWhile_append_of_pos hother]
      simp [Buffer.restart]
    have hagreement : (r.indicate m.frame (r.ctrl.indicatepkt m.frame)).agreement =
        r.agreement + 1 := by
      simp [BaRun.indicate, hack]
    exact hr.renew hwin hwsize' hagreement hdel (fun p hp => (hlowerSeq p hp).1) hupperSeq hlower
      hupper hrefines hsound hkept

/-! ## Runs -/

/-- **A step on a queue that suits the window it starts keeps the invariant.** -/
theorem BaRun.Inv.call (hr : r.Inv w) (hw : 1 ≤ w ∧ w ≤ 255) {k : BaCall} (hfits : r.fits k) :
    (r.call k).Inv w := by
  -- a frame in a window that is on
  have hon : ∀ m : QosMpdu, r.ctrl.enable →
      (r.ctrl.startsAnew → r.startFits m.frame.attrib.seqNum) →
        (r.indicate m.frame (r.ctrl.indicatepkt m.frame)).Inv w := by
    intro m henable hfit
    by_cases hanew : r.ctrl.startsAnew
    · exact hr.indicate_anew hw m hanew (hfit hanew)
    · exact hr.indicate_live hw m henable (by simpa using hanew)
  have hret : ∀ m : QosMpdu, (r.ctrl.indicatepkt m.frame).1 ≠ .success := by
    intro m
    rcases indicatepkt_cases r.ctrl m.frame with ⟨hret, -, -⟩ | ⟨hret, -⟩ <;> simp [hret]
  cases k with
  | recv m =>
    by_cases henable : r.ctrl.enable
    · have hcall : r.call (.recv m) = r.indicate m.frame (r.ctrl.indicatepkt m.frame) := by
        simp only [BaRun.call, recvIndicatepktReorder_on henable, if_neg (hret m)]
      rw [hcall]
      refine hon m henable fun hanew => ?_
      simpa [BaRun.fits, henable, hanew] using hfits
    · have henable : r.ctrl.enable = false := by simpa using henable
      have hcall : r.call (.recv m) = r.pass m.frame r.ctrl := by
        simp [BaRun.call, recvIndicatepktReorder_off henable]
      rw [hcall]
      exact hr.pass hw.2 m henable (by simpa [BaRun.fits, henable] using hfits)
  | coop m =>
    by_cases henable : r.ctrl.enable
    · have hcall : r.call (.coop m) = r.indicate m.frame (r.ctrl.indicatepkt m.frame) := by
        simp only [BaRun.call, recvIndicatepktReorder_on henable, if_neg (hret m)]
      rw [hcall]
      refine hon m henable fun hanew => ?_
      simpa [BaRun.fits, henable, hanew] using hfits
    · have henable : r.ctrl.enable = false := by simpa using henable
      have hcall : r.call (.coop m) = r := by
        simp [BaRun.call, recvIndicatepktReorder_off henable]
      rwa [hcall]
  | timeout => exact hr.call_timeout hw.2
  | delba => exact hr.call_delba
  | addBaRsp status => exact hr.call_addBaRsp status
  | wow => exact hr.call_wow

/-- What the invariant says about sequence numbers. -/
theorem BaRun.Inv.safe (hr : r.Inv w) (hw : w ≤ 255) : r.Safe := by
  obtain ⟨b, out, hwin⟩ := hr.window
  have hoffset : ∀ p ∈ b.held,
      (snOffset r.ctrl.indicateSeq p.2.attrib.seqNum : ℤ) = p.1 - b.next ∧ p.1 - b.next < w := by
    intro p hp
    obtain ⟨hlo, hhi⟩ := hwin.waits.within p hp
    have hmem : p.2 ∈ r.ctrl.pendingRecvframeQueue := by
      rw [hwin.queue]
      exact List.mem_map_of_mem hp
    have hind := hwin.indicate.resolve_right fun h => by simp [h.2] at hmem
    exact ⟨snOffset_eq hind (hwin.seq p hp) (by omega) (by omega), by omega⟩
  refine ⟨?_, fun f hf => ?_, fun n => ?_, fun f => ?_⟩
  · rw [hwin.queue, List.pairwise_map]
    refine hwin.waits.steps.sorted.imp_of_mem fun {p q} hp hq hlt => ?_
    have hp := hoffset p hp
    have hq := hoffset q hq
    omega
  · rw [hwin.queue] at hf
    obtain ⟨p, hp, rfl⟩ := List.mem_map.mp hf
    have hp := hoffset p hp
    rw [hr.wsize]
    omega
  · by_cases hn : n = r.agreement
    · rw [hn, hwin.current]
      exact later_of_steps hwin.steps hwin.outSeq
    · exact hr.later n hn
  · rw [← List.count_append]
    exact hr.kept.count_eq f

/-- A window as `rtw_init_stainfo` leaves it. -/
theorem BaRun.Inv.start (c : RecvReorderCtrl) (hinit : c.indicateSeq = 0xFFFF)
    (hqueue : c.pendingRecvframeQueue = []) : BaRun.Inv c.wsizeB { ctrl := c } := by
  refine ⟨rfl, ⟨⟨0, []⟩, [], ⟨hqueue, by simp, rfl, by simp, steps_nil, ⟨steps_nil, by simp⟩,
    Or.inr ⟨hinit, hqueue⟩, fun _ hnew => ?_⟩⟩, fun _ _ => rfl,
    fun _ _ => by simp [Later, BaRun.deliveredIn],
    by simp [hqueue]⟩
  have hanew := (startsAnew_iff c).mpr (Or.inr (Or.inr hinit))
  simp [hnew] at hanew

/-- **Reorder safety across agreements.** From a fresh window of 1 to 255 frames, over every
interleaving of frames, timeouts, DELBAs, ADDBA responses and wake-ups that finds the queue suiting
each window it starts: the queue goes up inside the window, each delivery of an agreement is ahead
of the one before it, and no frame is delivered more often than it was taken. -/
theorem baRun_safe (c : RecvReorderCtrl) (hw : 1 ≤ c.wsizeB ∧ c.wsizeB ≤ 255)
    (hinit : c.indicateSeq = 0xFFFF) (hqueue : c.pendingRecvframeQueue = []) {ks : List BaCall}
    (hok : Meets BaRun.next (fun r k => r.fits k) { ctrl := c } ks)
    (hrun : run BaRun.next { ctrl := c } ks = some r) : r.Safe := by
  have hr : r.Inv c.wsizeB := by
    refine run_invariant_of_meets (fun r k r' hr hfits hnext => ?_) (BaRun.Inv.start c hinit hqueue)
      hok hrun
    obtain rfl := Option.some.inj hnext
    exact hr.call hw hfits
  exact hr.safe hw.2

def qosMpdu (id seqNum : ℕ) (h : seqNum < 4096) : QosMpdu :=
  ⟨{ id, attrib := { qos := true, seqNum } }, rfl, h⟩

/-- Frame 13 waits while frame 11 passes the window that a DELBA switched off, and frame 12 opens
the next agreement right before it. -/
def leftoverFitsRun : List BaCall :=
  [.recv (qosMpdu 0 10 (by decide)), .coop (qosMpdu 1 13 (by decide)), .delba,
    .recv (qosMpdu 2 11 (by decide)), .addBaRsp 0, .recv (qosMpdu 3 12 (by decide)), .timeout]

theorem baRun_safe_leftover :
    ∃ r, run BaRun.next { ctrl := { enable := true } } leftoverFitsRun = some r ∧
      r.delivered.map (fun d => (d.1, d.2.attrib.seqNum)) =
        [(some 0, 10), (none, 11), (some 1, 12), (some 1, 13)] ∧ r.Safe :=
  ⟨_, rfl, by decide +kernel, baRun_safe { enable := true } (by decide) rfl rfl
    (by decide +kernel : Meets BaRun.next (fun r k => r.fits k) _ leftoverFitsRun) rfl⟩

/-- Frame 12 waits while frame 13 passes the window that a DELBA switched off, and the window moves
on to 14. -/
def leftoverStaleRun : List BaCall :=
  [.recv (qosMpdu 0 10 (by decide)), .recv (qosMpdu 1 12 (by decide)), .delba,
    .recv (qosMpdu 2 13 (by decide))]

/-- A window that moves over its queue leaves a frame behind it. -/
theorem not_baRun_safe :
    ¬∀ (c : RecvReorderCtrl) (ks : List BaCall) (r : BaRun), 1 ≤ c.wsizeB ∧ c.wsizeB ≤ 255 →
      c.indicateSeq = 0xFFFF → c.pendingRecvframeQueue = [] →
        run BaRun.next { ctrl := c } ks = some r → r.Safe := by
  intro h
  have hsafe := h { enable := true } leftoverStaleRun _ (by decide) rfl rfl rfl
  have hin := hsafe.within (qosMpdu 1 12 (by decide)).frame (by decide +kernel)
  exact absurd hin (by decide +kernel)

end Rtl88x2eu
