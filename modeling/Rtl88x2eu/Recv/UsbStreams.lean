import Mathlib.Data.Fintype.Basic
import Rtl88x2eu.Recv.UsbParse

/-!
# The USB receive streams of several adapters

Every adapter has its own transfers and its own free queue, and the receive tasklets of several USB
devices run at once. The mark `buffer_full` of `recvbuf2recvframe` is a static variable: there is
one for all of them. An adapter whose transfer was full and cut off sets it, for the first pass of
whoever comes next.

## Main definitions

* `Packet`
* `Port`, `Act`, `Port.act`: the receive side of an adapter, and what happens there
* `System`, `System.step`: the adapters and the mark, stepping in any order
* `Unmixed`

## Main results

* `port_eq_alone`: in a run without mixed passes every adapter gets what it gets alone
-/

namespace Rtl88x2eu.UsbRecv

/-- A packet that the receive entry gets. -/
structure Packet where
  attrib : RxPktAttrib
  data : Bytes
deriving DecidableEq

def RecvBuf.bytes (b : RecvBuf) (start len : ℕ) : Bytes :=
  (List.range len).map fun i => b.mem (start + i)

def Event.packet (b : RecvBuf) : Event → Option Packet
  | .preRecvEntry _ attrib pdata w => some ⟨attrib, b.bytes pdata w.len⟩
  | _ => none

/-- The receive side of an adapter. -/
structure Port where
  rxSkbQueue : List RecvBuf := []
  /-- The transfer that `recvbuf2recvframe` walks over, and where it is. -/
  walk : Option (RecvBuf × Rx) := none
  freeRecvQueue : List ℕ := []
  packets : List Packet := []

/-- What happens at an adapter. -/
inductive Act
  | transfer (b : RecvBuf)
  /-- Descriptors come back, or are taken elsewhere. -/
  | others (f : List ℕ → List ℕ)
  /-- The tasklet goes through the loop once. -/
  | pass (ans : Answer)

variable (maxRecvbufSz : ℕ)

def Port.pass (p : Port) (b : RecvBuf) (s : Rx) (ans : Answer) : Option (Bool × Port) :=
  (UsbRecv.pass maxRecvbufSz b s ans).map fun s' =>
    (s'.bufferFull,
      { p with
        walk := if s'.running then some (b, s') else none
        freeRecvQueue := s'.freeRecvQueue
        packets := p.packets ++ s'.log.filterMap (Event.packet b) })

def Port.act (bufferFull : Bool) (p : Port) : Act → Option (Bool × Port)
  | .transfer b => some (bufferFull, { p with rxSkbQueue := p.rxSkbQueue ++ [b] })
  | .others f => some (bufferFull, { p with freeRecvQueue := f p.freeRecvQueue })
  | .pass ans =>
    match p.walk, p.rxSkbQueue with
    | some (b, s), _ =>
      p.pass maxRecvbufSz b { s with bufferFull, freeRecvQueue := p.freeRecvQueue, log := [] } ans
    | none, b :: rest =>
      { p with rxSkbQueue := rest }.pass maxRecvbufSz b (.start b bufferFull p.freeRecvQueue) ans
    | none, [] => none

structure System (ι : Type*) where
  bufferFull : Bool := false
  /-- Not in the source: the adapter whose transfer set the mark last. -/
  setter : Option ι := none
  port : ι → Port

variable {ι : Type*} [DecidableEq ι]

def System.step (w : System ι) (e : ι × Act) : Option (System ι) :=
  ((w.port e.1).act maxRecvbufSz w.bufferFull e.2).map fun r =>
    { bufferFull := r.1
      setter := if r.1 && !w.bufferFull then some e.1 else w.setter
      port := Function.update w.port e.1 r.2 }

/-- If the pass finds the mark set, the adapter set it itself. -/
def Unmixed (w : System ι) : ι × Act → Prop
  | (i, .pass _) => w.bufferFull = true → w.setter = some i
  | _ => True

instance Unmixed.decidable (w : System ι) : ∀ e, Decidable (Unmixed w e)
  | (_, .pass _) => inferInstanceAs (Decidable (_ → _))
  | (_, .transfer _) => isTrue trivial
  | (_, .others _) => isTrue trivial

structure Alone (i : ι) (w v : System ι) : Prop where
  port : v.port i = w.port i
  mark : v.bufferFull = true ↔ w.bufferFull = true ∧ w.setter = some i

variable {maxRecvbufSz} {w w' v : System ι} {i : ι} {e : ι × Act}

theorem mem_step (h : w.step maxRecvbufSz e = some w') :
    ∃ r, (w.port e.1).act maxRecvbufSz w.bufferFull e.2 = some r ∧ w'.bufferFull = r.1 ∧
      w'.setter = (if r.1 && !w.bufferFull then some e.1 else w.setter) ∧
      w'.port = Function.update w.port e.1 r.2 := by
  obtain ⟨r, hr, rfl⟩ := Option.map_eq_some_iff.mp h
  exact ⟨r, hr, rfl, rfl, rfl⟩

/-- The adapter's own acts take it to the same port when it runs alone. -/
theorem Alone.keep (h : Alone i w v) (hok : Unmixed w e) (he : e.1 = i)
    (hstep : w.step maxRecvbufSz e = some w') :
    ∃ v', v.step maxRecvbufSz e = some v' ∧ Alone i w' v' := by
  obtain ⟨j, act⟩ := e
  obtain rfl : j = i := he
  obtain ⟨r, hr, hfull, hsetter, hport⟩ := mem_step hstep
  dsimp only at hr hsetter hport
  cases act with
  | transfer b | others f =>
    -- the mark stays as it is on both sides
    obtain rfl := Option.some.inj hr
    refine ⟨_, rfl, ?_, ?_⟩
    · simp [hport, h.port]
    · simp only [hfull, hsetter, Bool.and_not_self, Bool.false_eq_true, if_false]
      exact h.mark
  | pass ans =>
    have hsame : v.bufferFull = w.bufferFull := by
      rw [Bool.eq_iff_iff, h.mark]
      exact and_iff_left_of_imp hok
    refine ⟨⟨r.1, if r.1 && !v.bufferFull then some j else v.setter,
      Function.update v.port j r.2⟩, ?_, ?_, ?_⟩
    · unfold System.step
      rw [h.port, hsame, hr]
      rfl
    · simp [hport]
    · rw [hfull, hsetter]
      refine (and_iff_left_of_imp fun hmark => ?_).symm
      change r.1 = true at hmark
      cases hold : w.bufferFull with
      | true => simpa [hold] using hok hold
      | false => simp [hmark]

/-- What the others do, the adapter does not see. -/
theorem Alone.drop (h : Alone i w v) (hok : Unmixed w e) (he : e.1 ≠ i)
    (hstep : w.step maxRecvbufSz e = some w') : Alone i w' v := by
  obtain ⟨j, act⟩ := e
  obtain ⟨r, hr, hfull, hsetter, hport⟩ := mem_step hstep
  dsimp only at hr hsetter hport he
  refine ⟨?_, ?_⟩
  · rw [hport, Function.update_of_ne (Ne.symm he)]
    exact h.port
  cases act with
  | transfer b | others f =>
    obtain rfl := Option.some.inj hr
    simp only [hfull, hsetter, Bool.and_not_self, Bool.false_eq_true, if_false]
    exact h.mark
  | pass ans =>
    -- a mark that is set before or after the pass is that of `j`
    have hclear : v.bufferFull ≠ true := by
      intro hmark
      obtain ⟨hset, howner⟩ := h.mark.mp hmark
      rw [hok hset] at howner
      exact he (Option.some.inj howner)
    refine iff_of_false hclear fun hmark => ?_
    rw [hfull, hsetter] at hmark
    cases hold : w.bufferFull with
    | true =>
      simp only [hold, Bool.not_true, Bool.and_false, Bool.false_eq_true, if_false,
        hok hold] at hmark
      exact he (Option.some.inj hmark.2)
    | false =>
      simp only [hold, Bool.not_false, Bool.and_true, hmark.1, if_true] at hmark
      exact he (Option.some.inj hmark.2)

/-- **Every adapter gets what it gets alone**, in any order of steps, as long as no pass finds the
mark of another adapter. -/
theorem port_eq_alone (maxRecvbufSz : ℕ) (w w' : System ι) (es : List (ι × Act)) (i : ι)
    (hclear : w.bufferFull = false)
    (hok : Transition.Meets (System.step maxRecvbufSz) Unmixed w es)
    (hrun : Transition.run (System.step maxRecvbufSz) w es = some w') :
    ∃ v, Transition.run (System.step maxRecvbufSz) w (es.filter (·.1 = i)) = some v ∧
      v.port i = w'.port i := by
  have hstart : Alone i w w := ⟨rfl, by simp [hclear]⟩
  have hkeep (s v : System ι) (e : ι × Act) (s' : System ι) (h : Alone i s v) (hok : Unmixed s e)
      (he : decide (e.1 = i) = true) (hstep : s.step maxRecvbufSz e = some s') :
      ∃ v', v.step maxRecvbufSz e = some v' ∧ Alone i s' v' :=
    h.keep hok (of_decide_eq_true he) hstep
  have hdrop (s v : System ι) (e : ι × Act) (s' : System ι) (h : Alone i s v) (hok : Unmixed s e)
      (he : decide (e.1 = i) = false) (hstep : s.step maxRecvbufSz e = some s') : Alone i s' v :=
    h.drop hok (of_decide_eq_false he) hstep
  obtain ⟨v, hv, hend⟩ := Transition.run_filter_of_meets hkeep hdrop hstart hok hrun
  exact ⟨v, hv, hend.port⟩

/-- A transfer of C2H packets of 16383 octets: the second one does not fit into 32768. -/
def fullTransfer : RecvBuf where
  mem i :=
    if i % 16408 = 0 then 0xff else if i % 16408 = 1 then 0x3f else if i % 16408 = 11 then 0x10
    else 0
  transferLen := 32768

def idlePorts : System Bool where
  port _ := { freeRecvQueue := [0, 1] }

/-- Two adapters take turns over transfers that are not full. -/
theorem port_eq_alone_eightOctets :
    ∃ w', Transition.run (System.step 32768) idlePorts
        [(false, .transfer (eightOctets 32)), (true, .transfer (eightOctets 32)),
          (false, .pass plainAnswer), (true, .pass plainAnswer)] = some w' ∧
      (w'.port true).packets.length = 1 ∧
      ∃ v, Transition.run (System.step 32768) idlePorts
          [(true, .transfer (eightOctets 32)), (true, .pass plainAnswer)] = some v ∧
        v.port true = w'.port true := by
  obtain ⟨w', hrun, hone⟩ : ∃ w', Transition.run (System.step 32768) idlePorts
      [(false, .transfer (eightOctets 32)), (true, .transfer (eightOctets 32)),
        (false, .pass plainAnswer), (true, .pass plainAnswer)] = some w' ∧
        (w'.port true).packets.length = 1 :=
    Transition.exists_run_of_any (by decide +kernel)
  have halone := port_eq_alone 32768 idlePorts w' _ true rfl (by decide +kernel) hrun
  exact ⟨w', hrun, hone, halone⟩

/-- The second adapter loses the packet that it gets alone: the mark is that of the first. -/
theorem not_port_eq_alone :
    ∃ w' v, Transition.run (System.step 32768) idlePorts
        [(false, .transfer fullTransfer), (true, .transfer (eightOctets 32)),
          (false, .pass plainAnswer), (false, .pass plainAnswer), (true, .pass plainAnswer)] =
          some w' ∧
      Transition.run (System.step 32768) idlePorts
        [(true, .transfer (eightOctets 32)), (true, .pass plainAnswer)] = some v ∧
      (w'.port true).packets.length = 0 ∧ (v.port true).packets.length = 1 := by
  obtain ⟨w', hw', hnone⟩ : ∃ w', Transition.run (System.step 32768) idlePorts
      [(false, .transfer fullTransfer), (true, .transfer (eightOctets 32)),
        (false, .pass plainAnswer), (false, .pass plainAnswer), (true, .pass plainAnswer)] =
        some w' ∧ (w'.port true).packets.length = 0 :=
    Transition.exists_run_of_any (by decide +kernel)
  obtain ⟨v, hv, hone⟩ : ∃ v, Transition.run (System.step 32768) idlePorts
      [(true, .transfer (eightOctets 32)), (true, .pass plainAnswer)] = some v ∧
        (v.port true).packets.length = 1 :=
    Transition.exists_run_of_any (by decide +kernel)
  exact ⟨w', v, hw', hv, hnone, hone⟩

end Rtl88x2eu.UsbRecv
