import Rtl88x2eu.Lib.Serial
import Rtl88x2eu.Lib.Reordering
import Rtl88x2eu.Recv.Reorder

/-!
# Safety of the reorder window

The window of `rtw_recv.c` compares 12-bit sequence numbers by half range. Behind the residues
it runs the reordering buffer over the integers: `Refines` relates the two, each operation of the
code simulates one of the buffer, and what the buffer guarantees about order and conservation
carries over to every sequence of frames and timeouts.

## Main definitions

* `snOffset`, `Refines`
* `ReorderCall`, `ReorderRun`: the calls on one window, and what they deliver and answer

## Main results

* `indicatepkt_refines`, `timeout_refines`: the operations simulate the buffer's
* `reorderRun_safe`: order, window and conservation over every run
-/

namespace Rtl88x2eu

open Reordering

/-- The distance from sequence number `a` up to `b`. -/
def snOffset (a b : ℕ) : ℕ := (((b : ℤ) - a) % 4096).toNat

theorem snLess_iff (a b : ℕ) : snLess a b ↔ Serial.Less 2048 a b := by
  simp only [snLess, Serial.Less, decide_eq_true_eq]
  omega

theorem snLess_iff_lt {a b : ℕ} {m n : ℤ} (ha : (a : ℤ) = m % 4096) (hb : (b : ℤ) = n % 4096)
    (hlo : -2048 ≤ m - n) (hhi : m - n < 2048) : snLess a b ↔ m < n := by
  rw [snLess_iff, ha, hb]
  exact (Serial.less_emod 2048 m n).trans (Serial.less_iff_lt hlo hhi)

theorem seq_eq_iff {a b : ℕ} {m n : ℤ} (ha : (a : ℤ) = m % 4096) (hb : (b : ℤ) = n % 4096)
    (hlo : -4096 < m - n) (hhi : m - n < 4096) : a = b ↔ m = n := by
  rw [← Serial.emod_eq_emod_iff (m := 4096) hlo hhi, ← ha, ← hb]
  exact Int.natCast_inj.symm

/-- The window holds the residues of the buffer's numbers. -/
structure Refines (c : RecvReorderCtrl) (b : Buffer RecvFrame) : Prop where
  indicate : (c.indicateSeq : ℤ) = b.next % 4096
  queue : c.pendingRecvframeQueue = b.held.map Prod.snd
  seq : ∀ p ∈ b.held, (p.2.attrib.seqNum : ℤ) = p.1 % 4096

theorem enqueueReorderRecvframe_eq {f : RecvFrame} {n : ℤ} {q : List (ℤ × RecvFrame)}
    (hf : (f.attrib.seqNum : ℤ) = n % 4096)
    (hseq : ∀ p ∈ q, (p.2.attrib.seqNum : ℤ) = p.1 % 4096)
    (hnear : ∀ p ∈ q, -2048 ≤ p.1 - n ∧ p.1 - n < 2048)
    (hsorted : q.Pairwise fun p r => p.1 < r.1) :
    enqueueReorderRecvframe f (q.map Prod.snd) =
      if n ∈ q.map Prod.fst then none else some ((place n f q).map Prod.snd) := by
  induction q with
  | nil => simp [enqueueReorderRecvframe, place]
  | cons p q ih =>
    have hp : p ∈ p :: q := List.mem_cons_self
    have hless := snLess_iff_lt (hseq p hp) hf (hnear p hp).1 (hnear p hp).2
    have hrec := ih (fun r hr => hseq r (.tail _ hr)) (fun r hr => hnear r (.tail _ hr))
      hsorted.of_cons
    simp only [List.map_cons, enqueueReorderRecvframe, List.mem_cons, place]
    rcases lt_trichotomy p.1 n with hlt | heq | hgt
    · rw [if_pos (hless.mpr hlt), hrec, if_pos hlt]
      simp only [hlt.ne', false_or]
      split <;> simp
    · have hne : ¬ snLess p.2.attrib.seqNum f.attrib.seqNum := fun h => (hless.mp h).ne heq
      have hs : p.2.attrib.seqNum = f.attrib.seqNum :=
        (seq_eq_iff (hseq p hp) hf (by omega) (by omega)).mpr heq
      simp [hs, heq, hs ▸ hne]
    · have hne : ¬ snLess p.2.attrib.seqNum f.attrib.seqNum := fun h => (hless.mp h).not_gt hgt
      have hs : p.2.attrib.seqNum ≠ f.attrib.seqNum := fun h =>
        hgt.ne' ((seq_eq_iff (hseq p hp) hf (by have := hnear p hp; omega)
          (by have := hnear p hp; omega)).mp h)
      have hnot : n ∉ q.map Prod.fst := by
        intro hn
        obtain ⟨r, hr, rfl⟩ := List.mem_map.mp hn
        exact (List.rel_of_pairwise_cons hsorted hr).not_gt hgt
      simp [hne, hs, hgt.ne, hgt.not_gt, hnot]

theorem indicateLoop_eq {ind : ℕ} {next : ℤ} {q : List (ℤ × RecvFrame)}
    (hind : (ind : ℤ) = next % 4096)
    (hseq : ∀ p ∈ q, (p.2.attrib.seqNum : ℤ) = p.1 % 4096)
    (hnear : ∀ p ∈ q, -2048 ≤ next - p.1 ∧ next - p.1 < 2048)
    (hsorted : q.Pairwise fun p r => p.1 < r.1) :
    ((indicateLoop ind (q.map Prod.snd)).indicateSeq : ℤ) = (release next q).2.next % 4096 ∧
      (indicateLoop ind (q.map Prod.snd)).indicated = (release next q).1.map Prod.snd ∧
      (indicateLoop ind (q.map Prod.snd)).queue = (release next q).2.held.map Prod.snd := by
  induction q generalizing ind next with
  | nil => exact ⟨hind, rfl, rfl⟩
  | cons p q ih =>
    have hp : p ∈ p :: q := List.mem_cons_self
    have hless := snLess_iff_lt hind (hseq p hp) (hnear p hp).1 (hnear p hp).2
    rcases lt_or_ge next p.1 with hlt | hge
    · simp [indicateLoop, hless.mpr hlt, release_of_lt hlt, hind]
    · have hne : ¬ snLess ind p.2.attrib.seqNum := fun h => (hless.mp h).not_ge hge
      have hs : ind = p.2.attrib.seqNum ↔ next = p.1 :=
        seq_eq_iff hind (hseq p hp) (by have := hnear p hp; omega) (by have := hnear p hp; omega)
      have hind' : ((if ind = p.2.attrib.seqNum then (ind + 1) % 4096 else ind : ℕ) : ℤ) =
          (if next = p.1 then next + 1 else next) % 4096 := by
        by_cases heq : next = p.1
        · rw [if_pos (hs.mpr heq), if_pos heq]
          omega
        · rw [if_neg (mt hs.mp heq), if_neg heq]
          exact hind
      have hrec := ih hind' (fun r hr => hseq r (.tail _ hr)) ?_ hsorted.of_cons
      · simp only [List.map_cons, indicateLoop, if_neg hne, release_of_le hge]
        exact ⟨hrec.1, congrArg _ hrec.2.1, hrec.2.2⟩
      · intro r hr
        have hlt := List.rel_of_pairwise_cons hsorted hr
        have hnr := hnear r (.tail _ hr)
        split <;> omega

theorem checkIndicateSeq_eq {c : RecvReorderCtrl} {s : ℕ} {next n : ℤ}
    (hw : 1 ≤ c.wsizeB ∧ c.wsizeB ≤ 255) (hind : (c.indicateSeq : ℤ) = next % 4096)
    (hs : (s : ℤ) = n % 4096) (hlo : -2048 ≤ n - next) (hhi : n - next < 2048) :
    checkIndicateSeq c s =
      if n < next then (false, c)
      else (true, { c with indicateSeq := (advance c.wsizeB next n % 4096).toNat }) := by
  have hinit : c.indicateSeq ≠ 0xFFFF := by omega
  have hless := snLess_iff_lt hs hind hlo hhi
  simp only [checkIndicateSeq, if_neg hinit]
  rcases lt_trichotomy n next with hlt | heq | hgt
  · rw [if_pos (hless.mpr hlt), if_pos hlt]
  · have hse : s = c.indicateSeq := (seq_eq_iff hs hind (by omega) (by omega)).mpr heq
    rw [if_neg fun h => (hless.mp h).ne heq, if_pos hse, if_neg heq.not_lt, advance, if_pos heq]
    congr 2
    omega
  · have hse : s ≠ c.indicateSeq := fun h =>
      hgt.ne' ((seq_eq_iff hs hind (by omega) (by omega)).mp h)
    have hwend : ((((c.indicateSeq + c.wsizeB - 1 : ℤ) % 4096).toNat : ℕ) : ℤ) =
        (next + c.wsizeB - 1) % 4096 := by omega
    have hbeyond := snLess_iff_lt hwend hs (by omega) (by omega)
    rw [if_neg fun h => (hless.mp h).not_gt hgt, if_neg hse, if_neg hgt.not_gt, advance,
      if_neg hgt.ne']
    by_cases hshift : next + c.wsizeB ≤ n
    · rw [if_pos (hbeyond.mpr (by omega)), if_pos hshift, u16, u16]
      split <;> congr 2 <;> omega
    · rw [if_neg (mt hbeyond.mp (by omega)), if_neg hshift]
      congr 2
      omega

theorem indicatepkt_of_init {c : RecvReorderCtrl} {f : RecvFrame} (hinit : c.indicateSeq = 0xFFFF)
    (hack : c.recvAckOrTimeout = false) (hwow : c.recvReorderWow = false)
    (hf : f.attrib.seqNum < 4096) :
    c.indicatepkt f = { c with indicateSeq := f.attrib.seqNum }.indicatepkt f := by
  have hcheck : checkIndicateSeq c f.attrib.seqNum =
      checkIndicateSeq { c with indicateSeq := f.attrib.seqNum } f.attrib.seqNum := by
    simp [checkIndicateSeq, hinit, show f.attrib.seqNum ≠ 0xFFFF by omega]
  rw [RecvReorderCtrl.indicatepkt, RecvReorderCtrl.indicatepkt, clearAbba_of_clear hack hwow,
    clearAbba_of_clear (by exact hack) (by exact hwow), hcheck]

variable {c : RecvReorderCtrl} {b : Buffer RecvFrame} {last : Option ℤ}

/-- **A frame simulates an arrival**: a refused frame leaves the window to the same buffer, an
accepted one indicates what the buffer releases. -/
theorem indicatepkt_refines (hc : Refines c b) (hb : b.Sound c.wsizeB 2048 last)
    (hw : 1 ≤ c.wsizeB ∧ c.wsizeB ≤ 255) (hack : c.recvAckOrTimeout = false)
    (hwow : c.recvReorderWow = false) {f : RecvFrame} {n : ℤ}
    (hf : (f.attrib.seqNum : ℤ) = n % 4096) (hlo : b.next - 2048 ≤ n) (hhi : n < b.next + 2048) :
    match b.arrive c.wsizeB n f with
    | none => c.indicatepkt f = (.fail, c, [])
    | some (out, b') => (c.indicatepkt f).1 = .rxHandled ∧ Refines (c.indicatepkt f).2.1 b' ∧
        (c.indicatepkt f).2.2 = out.map Prod.snd := by
  have hcheck := checkIndicateSeq_eq hw hc.indicate hf (by omega) (by omega)
  rw [Buffer.arrive, RecvReorderCtrl.indicatepkt, clearAbba_of_clear hack hwow, hcheck]
  by_cases hlt : n < b.next
  · simp [hlt]
  have hnear : ∀ p ∈ b.held, -2048 ≤ p.1 - n ∧ p.1 - n < 2048 := by
    intro p hp
    have := hb.ahead p hp
    have := hb.within p hp
    omega
  have henq := enqueueReorderRecvframe_eq hf hc.seq hnear hb.steps.sorted
  rw [← hc.queue] at henq
  by_cases hdup : n ∈ b.held.map Prod.fst
  · -- a number that is held is inside the window, so the window has not moved
    obtain ⟨p, hp, hpn⟩ := List.mem_map.mp hdup
    have hstay : advance c.wsizeB b.next n = b.next := by
      have := hb.ahead p hp
      have := hb.within p hp
      unfold advance
      split_ifs <;> omega
    have hind : (b.next % 4096).toNat = c.indicateSeq := by
      have := hc.indicate
      omega
    simp [hlt, hdup, hstay, hind, henq]
  · have hnext : ((advance c.wsizeB b.next n % 4096).toNat : ℤ) =
        advance c.wsizeB b.next n % 4096 := by omega
    have hseq : ∀ p ∈ place n f b.held, (p.2.attrib.seqNum : ℤ) = p.1 % 4096 := by
      intro p hp
      rcases mem_place.mp hp with rfl | hp
      · exact hf
      · exact hc.seq p hp
    have hsorted : (place n f b.held).Pairwise fun p r => p.1 < r.1 := by
      have hsteps : Steps 2048 last (place n f b.held) := by
        refine place_steps hb.steps hdup (fun l hl => ?_) (fun hnil l hl => ?_)
          (fun p hp => ?_) (fun p hp => ?_)
        · exact (hb.behind l hl).trans_le (not_lt.mp hlt)
        · have := hb.tight l hl hnil
          omega
        · have := hnear p hp
          omega
        · have := hnear p hp
          omega
      exact hsteps.sorted
    have hloop := indicateLoop_eq (q := place n f b.held) hnext hseq ?_ hsorted
    · have hkeep : ∀ p ∈ (release (advance c.wsizeB b.next n) (place n f b.held)).2.held,
          p ∈ place n f b.held := fun p hp =>
        release_append (advance c.wsizeB b.next n) (place n f b.held) ▸
          List.mem_append_right _ hp
      simp only [hlt, hdup, or_self, if_false, if_true, henq, recvIndicatepktsInOrder,
        Bool.false_eq_true]
      exact ⟨trivial, ⟨hloop.1, hloop.2.2, fun p hp => hseq p (hkeep p hp)⟩, hloop.2.1⟩
    · intro p hp
      rcases mem_place.mp hp with rfl | hp
      · simp only [advance]
        split_ifs <;> omega
      · have := hb.ahead p hp
        have := hb.within p hp
        unfold advance
        split_ifs <;> omega

theorem timeout_of_queue (hqueue : c.pendingRecvframeQueue = b.held.map Prod.snd)
    (hseq : ∀ p ∈ b.held, (p.2.attrib.seqNum : ℤ) = p.1 % 4096)
    (hsorted : b.held.Pairwise fun p r => p.1 < r.1)
    (hspan : ∀ p ∈ b.held, ∀ r ∈ b.held, -2048 ≤ p.1 - r.1 ∧ p.1 - r.1 < 2048)
    (hheld : b.held ≠ []) :
    Refines c.timeout.1 b.expire.2 ∧ c.timeout.2 = b.expire.1.map Prod.snd := by
  obtain ⟨p, q, hpq⟩ := List.exists_cons_of_ne_nil hheld
  have hp : p ∈ b.held := by simp [hpq]
  have hloop := indicateLoop_eq (hseq p hp) hseq (hspan p hp) hsorted
  have hstep : recvIndicatepktsInOrder c.indicateSeq c.pendingRecvframeQueue true =
      indicateLoop p.2.attrib.seqNum (b.held.map Prod.snd) := by
    rw [hqueue, hpq]
    rfl
  rw [Buffer.expire_of_cons hpq, RecvReorderCtrl.timeout, hstep]
  refine ⟨⟨hloop.1, hloop.2.2, fun r hr => hseq r ?_⟩, hloop.2.1⟩
  exact release_append p.1 b.held ▸ List.mem_append_right _ hr

theorem timeout_of_nil (hqueue : c.pendingRecvframeQueue = []) :
    c.timeout = ({ c with bReorderWaiting := false }, []) := by
  simp [RecvReorderCtrl.timeout, recvIndicatepktsInOrder, hqueue]

/-- **A timeout simulates giving up the oldest gap.** -/
theorem timeout_refines (hc : Refines c b) (hb : b.Sound c.wsizeB 2048 last)
    (hw : c.wsizeB ≤ 255) :
    Refines c.timeout.1 b.expire.2 ∧ c.timeout.2 = b.expire.1.map Prod.snd := by
  by_cases hheld : b.held = []
  · rw [timeout_of_nil (by simp [hc.queue, hheld]), Buffer.expire_of_nil hheld]
    exact ⟨⟨hc.indicate, hc.queue, hc.seq⟩, rfl⟩
  · refine timeout_of_queue hc.queue hc.seq hb.steps.sorted (fun p hp r hr => ?_) hheld
    have := hb.ahead p hp
    have := hb.within p hp
    have := hb.ahead r hr
    have := hb.within r hr
    omega

/-! ## Runs -/

inductive ReorderCall
  | recv (f : RecvFrame)
  | timeout

/-- A window under a sequence of calls: what was handed to `recv_process_mpdu`, in order, and the
answer each frame got. -/
structure ReorderRun where
  ctrl : RecvReorderCtrl
  delivered : List RecvFrame := []
  answers : List (RecvFrame × Ret) := []

def ReorderRun.call (r : ReorderRun) : ReorderCall → ReorderRun
  | .recv f =>
    let step := r.ctrl.recvIndicatepktReorder f
    ⟨step.2.1, r.delivered ++ step.2.2, r.answers ++ [(f, step.1)]⟩
  | .timeout =>
    let step := r.ctrl.timeout
    ⟨step.1, r.delivered ++ step.2, r.answers⟩

def ReorderRun.calls (r : ReorderRun) (cs : List ReorderCall) : ReorderRun := cs.foldl call r

def ReorderRun.handled (r : ReorderRun) : List RecvFrame :=
  (r.answers.filter (·.2 = .rxHandled)).map Prod.fst

def ReorderRun.Window (r : ReorderRun) : Prop :=
  (r.ctrl.indicateSeq = 0xFFFF ∧ r.ctrl.pendingRecvframeQueue = [] ∧ r.delivered = []) ∨
    ∃ (b : Buffer RecvFrame) (out : List (ℤ × RecvFrame)), Refines r.ctrl b ∧
      b.Sound r.ctrl.wsizeB 2048 (lastOf none out) ∧ Steps 2048 none out ∧
      r.delivered = out.map Prod.snd ∧ ∀ p ∈ out, (p.2.attrib.seqNum : ℤ) = p.1 % 4096

/-- What every call keeps. -/
structure ReorderRun.Inv (w : ℕ) (r : ReorderRun) : Prop where
  enable : r.ctrl.enable = true
  wsize : r.ctrl.wsizeB = w
  ack : r.ctrl.recvAckOrTimeout = false
  wow : r.ctrl.recvReorderWow = false
  window : r.Window
  kept : (r.delivered ++ r.ctrl.pendingRecvframeQueue).Perm r.handled
  answered : ∀ a ∈ r.answers, a.2 ≠ .success

/-- A released batch extends the delivered frames. -/
theorem ReorderRun.Window.extend {r r' : ReorderRun} {b' : Buffer RecvFrame}
    {out out' : List (ℤ × RecvFrame)} (hsteps : Steps 2048 none out)
    (hdel : r.delivered = out.map Prod.snd)
    (hseq : ∀ p ∈ out, (p.2.attrib.seqNum : ℤ) = p.1 % 4096)
    (hnew : Steps 2048 (lastOf none out) out')
    (hnewSeq : ∀ p ∈ out', (p.2.attrib.seqNum : ℤ) = p.1 % 4096)
    (hsound : b'.Sound r'.ctrl.wsizeB 2048 (lastOf (lastOf none out) out'))
    (hrefines : Refines r'.ctrl b')
    (hdel' : r'.delivered = r.delivered ++ out'.map Prod.snd) : r'.Window := by
  refine Or.inr ⟨b', out ++ out', hrefines, lastOf_append none out out' ▸ hsound,
    steps_append.mpr ⟨hsteps, hnew⟩, by rw [hdel', hdel, List.map_append], fun p hp => ?_⟩
  rcases List.mem_append.mp hp with hp | hp
  · exact hseq p hp
  · exact hnewSeq p hp

theorem ReorderRun.Window.recv_initialised {r : ReorderRun} {w : ℕ} {f : RecvFrame}
    (hr : r.Inv w) (hw : 1 ≤ w ∧ w ≤ 255) (hqos : f.attrib.qos = true)
    {b : Buffer RecvFrame} {out : List (ℤ × RecvFrame)} (hrefines : Refines r.ctrl b)
    (hsound : b.Sound r.ctrl.wsizeB 2048 (lastOf none out)) (hsteps : Steps 2048 none out)
    (hdel : r.delivered = out.map Prod.snd)
    (hseq : ∀ p ∈ out, (p.2.attrib.seqNum : ℤ) = p.1 % 4096)
    (hf : f.attrib.seqNum < 4096) : (r.call (.recv f)).Window := by
  have hstep : r.call (.recv f) = ⟨(r.ctrl.indicatepkt f).2.1,
      r.delivered ++ (r.ctrl.indicatepkt f).2.2, r.answers ++ [(f, (r.ctrl.indicatepkt f).1)]⟩ := by
    simp [ReorderRun.call, RecvReorderCtrl.recvIndicatepktReorder, hqos, hr.enable]
  have hwc : 1 ≤ r.ctrl.wsizeB ∧ r.ctrl.wsizeB ≤ 255 := hr.wsize ▸ hw
  have hn : (f.attrib.seqNum : ℤ) = Serial.unwrap 2048 b.next f.attrib.seqNum % 4096 := by
    have hmod := Serial.unwrap_emod 2048 b.next f.attrib.seqNum
    norm_num at hmod
    omega
  have hlo := Serial.sub_le_unwrap (h := 2048) (by norm_num) b.next f.attrib.seqNum
  have hhi := Serial.unwrap_lt_add (h := 2048) (by norm_num) b.next f.attrib.seqNum
  have hsim := indicatepkt_refines hrefines hsound hwc hr.ack hr.wow hn hlo hhi
  have hframe := indicatepkt_frame r.ctrl f
  rw [hstep]
  cases harrive : b.arrive r.ctrl.wsizeB (Serial.unwrap 2048 b.next f.attrib.seqNum) f with
  | none =>
    rw [harrive] at hsim
    have hnone : Steps 2048 (lastOf none out) ([] : List (ℤ × RecvFrame)) := by simp
    have hrefines' : Refines (r.ctrl.indicatepkt f).2.1 b := by simpa [hsim] using hrefines
    refine ReorderRun.Window.extend hsteps hdel hseq hnone (by simp) ?_ hrefines' ?_
    · simpa [hsim] using hsound
    · simp [hsim]
  | some step =>
    obtain ⟨out', b'⟩ := step
    rw [harrive] at hsim
    obtain ⟨hsteps', hsound'⟩ := hsound.arrive (by omega) (by omega) hhi harrive
    refine ReorderRun.Window.extend hsteps hdel hseq hsteps' ?_ (hframe.2.1.symm ▸ hsound')
      hsim.2.1 (by simp [hsim.2.2])
    intro p hp
    have hmem := (Buffer.arrive_perm harrive).subset (List.mem_append_left _ hp)
    rcases List.mem_cons.mp hmem with rfl | hmem
    · exact hn
    · exact hrefines.seq p hmem

theorem ReorderRun.Inv.window_recv {r : ReorderRun} {w : ℕ} {f : RecvFrame} (hr : r.Inv w)
    (hw : 1 ≤ w ∧ w ≤ 255) (hqos : f.attrib.qos = true) (hf : f.attrib.seqNum < 4096) :
    (r.call (.recv f)).Window := by
  rcases hr.window with ⟨hinit, hqueue, hdel⟩ | ⟨b, out, hrefines, hsound, hsteps, hdel, hseq⟩
  · -- the frame starts the window, as if it had started there
    let r₀ : ReorderRun := { r with ctrl := { r.ctrl with indicateSeq := f.attrib.seqNum } }
    let b₀ : Buffer RecvFrame := ⟨f.attrib.seqNum, []⟩
    have hrefines : Refines r₀.ctrl b₀ := ⟨by simp only [r₀, b₀]; omega, hqueue, by simp [b₀]⟩
    have hr₀ : r₀.Inv w := ⟨hr.enable, hr.wsize, hr.ack, hr.wow,
      Or.inr ⟨b₀, [], hrefines, Buffer.Sound.empty _ _ _, steps_nil, hdel, by simp⟩, hr.kept,
      hr.answered⟩
    have hsame : r.call (.recv f) = r₀.call (.recv f) := by
      simp [ReorderRun.call, RecvReorderCtrl.recvIndicatepktReorder, hqos, hr.enable, r₀,
        indicatepkt_of_init hinit hr.ack hr.wow hf]
    rw [hsame]
    have hsteps : Steps 2048 none ([] : List (ℤ × RecvFrame)) := steps_nil
    exact ReorderRun.Window.recv_initialised hr₀ hw hqos hrefines (Buffer.Sound.empty _ _ _)
      hsteps hdel (by simp) hf
  · exact ReorderRun.Window.recv_initialised hr hw hqos hrefines hsound hsteps hdel hseq hf

theorem ReorderRun.Inv.window_timeout {r : ReorderRun} {w : ℕ} (hr : r.Inv w) (hw : w ≤ 255) :
    (r.call .timeout).Window := by
  rcases hr.window with ⟨hinit, hqueue, hdel⟩ | ⟨b, out, hrefines, hsound, hsteps, hdel, hseq⟩
  · refine Or.inl ?_
    simp [ReorderRun.call, RecvReorderCtrl.timeout, recvIndicatepktsInOrder, hinit, hqueue, hdel]
  · have hsim := timeout_refines hrefines hsound (hr.wsize ▸ hw)
    obtain ⟨hsteps', hsound'⟩ := hsound.expire
    refine ReorderRun.Window.extend hsteps hdel hseq hsteps' (fun p hp => ?_) hsound' hsim.1
      (by simp [ReorderRun.call, hsim.2])
    exact hrefines.seq p (b.expire_append ▸ List.mem_append_left _ hp)

/-- **One call keeps the invariant.** -/
theorem ReorderRun.Inv.call {r : ReorderRun} {w : ℕ} (hr : r.Inv w) (hw : 1 ≤ w ∧ w ≤ 255)
    {k : ReorderCall} (hk : ∀ f, k = .recv f → f.attrib.qos = true ∧ f.attrib.seqNum < 4096) :
    (r.call k).Inv w := by
  cases k with
  | recv f =>
    obtain ⟨hqos, hf⟩ := hk f rfl
    have hwindow := hr.window_recv hw hqos hf
    have hstep : r.ctrl.recvIndicatepktReorder f = r.ctrl.indicatepkt f := by
      simp [RecvReorderCtrl.recvIndicatepktReorder, hqos, hr.enable]
    obtain ⟨henable, hwsize, hack, hwow⟩ := indicatepkt_frame r.ctrl f
    simp only [ReorderRun.call, hstep] at hwindow ⊢
    refine ⟨henable.trans hr.enable, hwsize.trans hr.wsize, hack, hwow, hwindow, ?_, ?_⟩
    · rcases indicatepkt_cases r.ctrl f with ⟨hret, hout, hqueue⟩ | ⟨hret, hperm⟩
      · simpa [ReorderRun.handled, hret, hout, hqueue] using hr.kept
      · simp only [ReorderRun.handled, hret, List.filter_append, List.map_append, List.append_assoc]
        have hmid := (hperm.append_left r.delivered).trans List.perm_middle
        exact hmid.trans ((hr.kept.cons f).trans (List.perm_append_singleton f r.handled).symm)
    · intro a ha
      rcases List.mem_append.mp ha with ha | ha
      · exact hr.answered a ha
      · obtain rfl := List.mem_singleton.mp ha
        rcases indicatepkt_cases r.ctrl f with ⟨hret, -, -⟩ | ⟨hret, -⟩ <;> simp [hret]
  | timeout =>
    have hwindow := hr.window_timeout hw.2
    refine ⟨hr.enable, hr.wsize, hr.ack, hr.wow, hwindow, ?_, hr.answered⟩
    show (r.delivered ++ r.ctrl.timeout.2 ++ r.ctrl.timeout.1.pendingRecvframeQueue).Perm r.handled
    rw [List.append_assoc, timeout_append]
    exact hr.kept

theorem ReorderRun.Inv.calls {r : ReorderRun} {w : ℕ} (hr : r.Inv w) (hw : 1 ≤ w ∧ w ≤ 255)
    {ks : List ReorderCall}
    (hks : ∀ f, .recv f ∈ ks → f.attrib.qos = true ∧ f.attrib.seqNum < 4096) :
    (r.calls ks).Inv w := by
  induction ks generalizing r with
  | nil => exact hr
  | cons k ks ih =>
    refine ih (hr.call hw fun f hf => hks f ?_) fun f hf => hks f (.tail _ hf)
    exact hf ▸ List.mem_cons_self

theorem snOffset_eq {a b : ℕ} {m n : ℤ} (ha : (a : ℤ) = m % 4096) (hb : (b : ℤ) = n % 4096)
    (hlo : 0 ≤ n - m) (hhi : n - m < 4096) : (snOffset a b : ℤ) = n - m := by
  simp only [snOffset]
  omega

theorem Refines.queue_in_window {c : RecvReorderCtrl} {b : Buffer RecvFrame} {w : ℕ}
    {last : Option ℤ} (hc : Refines c b) (hb : b.Sound w 2048 last) (hw : w ≤ 255) :
    c.pendingRecvframeQueue.Pairwise (fun f g =>
        snOffset c.indicateSeq f.attrib.seqNum < snOffset c.indicateSeq g.attrib.seqNum) ∧
      ∀ f ∈ c.pendingRecvframeQueue, snOffset c.indicateSeq f.attrib.seqNum ≤ w - 1 := by
  have hoffset : ∀ p ∈ b.held,
      (snOffset c.indicateSeq p.2.attrib.seqNum : ℤ) = p.1 - b.next ∧ p.1 - b.next < w := by
    intro p hp
    have hahead := hb.ahead p hp
    have hwithin := hb.within p hp
    exact ⟨snOffset_eq hc.indicate (hc.seq p hp) (by omega) (by omega), by omega⟩
  rw [hc.queue, List.pairwise_map]
  refine ⟨hb.steps.sorted.imp_of_mem fun {p q} hp hq hlt => ?_, fun f hf => ?_⟩
  · have hp := hoffset p hp
    have hq := hoffset q hq
    omega
  · obtain ⟨p, hp, rfl⟩ := List.mem_map.mp hf
    have hp := hoffset p hp
    omega

theorem ReorderRun.Inv.queue_in_window {r : ReorderRun} {w : ℕ} (hr : r.Inv w) (hw : w ≤ 255) :
    r.ctrl.pendingRecvframeQueue.Pairwise (fun f g =>
        snOffset r.ctrl.indicateSeq f.attrib.seqNum < snOffset r.ctrl.indicateSeq g.attrib.seqNum) ∧
      ∀ f ∈ r.ctrl.pendingRecvframeQueue, snOffset r.ctrl.indicateSeq f.attrib.seqNum ≤ w - 1 := by
  rcases hr.window with ⟨-, hqueue, -⟩ | ⟨b, out, hrefines, hsound, -, -, -⟩
  · simp [hqueue]
  · exact hrefines.queue_in_window (hr.wsize ▸ hsound) hw

/-- Each delivery is ahead of the one before it, by at most half the number space. -/
theorem ReorderRun.Inv.delivered_later {r : ReorderRun} {w : ℕ} (hr : r.Inv w) :
    r.delivered.IsChain fun f g =>
      1 ≤ snOffset f.attrib.seqNum g.attrib.seqNum ∧
        snOffset f.attrib.seqNum g.attrib.seqNum ≤ 2048 := by
  rcases hr.window with ⟨-, -, hdel⟩ | ⟨b, out, -, -, hsteps, hdel, hseq⟩
  · simp [hdel]
  · rw [hdel, List.isChain_map]
    have hchain : out.IsChain fun p q => p.1 < q.1 ∧ q.1 ≤ p.1 + 2048 := by
      simpa [Steps, List.isChain_map] using hsteps
    refine hchain.imp_of_mem_imp fun p q hp hq hpq => ?_
    have hoffset := snOffset_eq (hseq p hp) (hseq q hq) (by omega) (by omega)
    omega

theorem handled_count (r : ReorderRun) (f : RecvFrame) :
    r.handled.count f = r.answers.count (f, .rxHandled) := by
  unfold ReorderRun.handled
  induction r.answers with
  | nil => rfl
  | cons a as ih =>
    obtain ⟨g, ret⟩ := a
    by_cases hret : ret = .rxHandled
    · simp [hret, List.count_cons, ih]
    · simp [hret, ih]

/-- **Reorder safety.** From an uninitialised window of 1 to 255 frames, over every sequence of
received frames and timeouts: the queue goes up inside the window, each delivery is ahead of the
one before it, a frame answered `RTW_RX_HANDLED` is delivered or queued exactly as often as it was
accepted, and a frame that was only ever refused is neither. -/
theorem reorderRun_safe (c : RecvReorderCtrl) (ks : List ReorderCall)
    (hw : 1 ≤ c.wsizeB ∧ c.wsizeB ≤ 255) (henable : c.enable = true)
    (hinit : c.indicateSeq = 0xFFFF) (hqueue : c.pendingRecvframeQueue = [])
    (hack : c.recvAckOrTimeout = false) (hwow : c.recvReorderWow = false)
    (hks : ∀ f, .recv f ∈ ks → f.attrib.qos = true ∧ f.attrib.seqNum < 4096) :
    let r := ReorderRun.calls ⟨c, [], []⟩ ks
    r.ctrl.pendingRecvframeQueue.Pairwise (fun f g =>
        snOffset r.ctrl.indicateSeq f.attrib.seqNum < snOffset r.ctrl.indicateSeq g.attrib.seqNum) ∧
      (∀ f ∈ r.ctrl.pendingRecvframeQueue,
        snOffset r.ctrl.indicateSeq f.attrib.seqNum ≤ c.wsizeB - 1) ∧
      (r.delivered.IsChain fun f g =>
        1 ≤ snOffset f.attrib.seqNum g.attrib.seqNum ∧
          snOffset f.attrib.seqNum g.attrib.seqNum ≤ 2048) ∧
      (∀ f, r.delivered.count f + r.ctrl.pendingRecvframeQueue.count f =
        r.answers.count (f, .rxHandled)) ∧
      (∀ f, (f, .rxHandled) ∉ r.answers →
        f ∉ r.delivered ∧ f ∉ r.ctrl.pendingRecvframeQueue) ∧
      ∀ a ∈ r.answers, a.2 = .rxHandled ∨ a.2 = .fail := by
  intro r
  have hstart : ReorderRun.Inv c.wsizeB ⟨c, [], []⟩ :=
    ⟨henable, rfl, hack, hwow, Or.inl ⟨hinit, hqueue, rfl⟩, by simp [hqueue, ReorderRun.handled],
      by simp⟩
  have hr : r.Inv c.wsizeB := hstart.calls hw hks
  obtain ⟨hsorted, hwithin⟩ := hr.queue_in_window hw.2
  have hcount : ∀ f, r.delivered.count f + r.ctrl.pendingRecvframeQueue.count f =
      r.answers.count (f, .rxHandled) := by
    intro f
    rw [← List.count_append, hr.kept.count_eq f]
    exact handled_count r f
  refine ⟨hsorted, hwithin, hr.delivered_later, hcount, fun f hf => ?_, fun a ha => ?_⟩
  · have hzero := hcount f
    rw [List.count_eq_zero.mpr hf] at hzero
    exact ⟨List.count_eq_zero.mp (by omega), List.count_eq_zero.mp (by omega)⟩
  · have hne := hr.answered a ha
    cases hret : a.2 <;> simp_all

/-- Three frames across the wrap of the sequence number, with a gap that a timeout closes. -/
theorem reorderRun_safe_wrap :
    let frame (id seq : ℕ) : RecvFrame := { id, attrib := { qos := true, seqNum := seq } }
    let r := ReorderRun.calls ⟨{ enable := true }, [], []⟩
      [.recv (frame 0 4095), .recv (frame 1 1), .recv (frame 2 4095), .timeout]
    (r.delivered.map (·.attrib.seqNum) = [4095, 1] ∧ r.answers.map Prod.snd =
      [.rxHandled, .rxHandled, .fail]) ∧
      r.delivered.IsChain fun f g =>
        1 ≤ snOffset f.attrib.seqNum g.attrib.seqNum ∧
          snOffset f.attrib.seqNum g.attrib.seqNum ≤ 2048 := by
  refine ⟨by decide, ?_⟩
  exact (reorderRun_safe { enable := true } _ (by decide) rfl rfl rfl rfl rfl
    (by simp)).2.2.1

end Rtl88x2eu
