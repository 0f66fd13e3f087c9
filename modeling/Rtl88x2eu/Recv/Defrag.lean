import Rtl88x2eu.Recv.Indicate

/-!
# Defragmentation

Fragments of a transmitter wait in its `defrag_q`; the last one puts the MPDU together in the
descriptor of the first and frees the others. The MIC of TKIP is checked on the whole.

## Main definitions

* `recvframeChkmic`, `recvframeDefrag`
* `recvframeChkDefrag`
-/

namespace Rtl88x2eu

def Adapter.noteGrpkey (a : Adapter) (micOk : Bool) (p : RxPktAttrib) : Adapter :=
  if micOk ∧ !a.securitypriv.bcheckGrpkey ∧ p.ra.isMcast then
    { a with securitypriv := { a.securitypriv with bcheckGrpkey := true } }
  else a

/-- `recvframe_chkmic`: whether the MIC is right, and the frame without it. -/
def recvframeChkmic (crypto : Crypto) (a : Adapter) (f : RecvFrame) :
    Bool × RecvFrame × Adapter :=
  if f.attrib.encrypt ≠ .tkip then (true, f, a)
  else
    match rtwGetStainfo a f.attrib.ta with
    | none => (true, recvframePullTail f 8, a)
    | some s =>
      if f.attrib.ra.isMcast && !a.securitypriv.binstallGrpkey then (false, f, a)
      else
        let mickey :=
          if f.attrib.ra.isMcast then a.securitypriv.dot118021XGrprxmickey f.attrib.keyIndex
          else (a.sta s).dot11tkiprxmickey
        -- the length is a `u32`
        let datalen := (((f.len : ℤ) - f.attrib.hdrlen - f.attrib.ivLen - f.attrib.icvLen - 8) %
          2 ^ 32).toNat
        let payload := f.rxData.drop (f.attrib.hdrlen + f.attrib.ivLen)
        let miccode :=
          crypto.seccalctkipmic mickey f.rxData (payload.take datalen) f.attrib.priority
        let micOk := miccode = (payload.drop datalen).take 8
        (micOk, recvframePullTail f 8, a.noteGrpkey micOk f.attrib)

def ccmphPn (f : RecvFrame) : ℕ := ivToPn .aes (f.rxData.drop f.attrib.hdrlen)

def defragAppend (first next : RecvFrame) (body : Bytes) : RecvFrame :=
  let first := recvframePut (recvframePullTail first first.attrib.icvLen) body
  { first with attrib := { first.attrib with icvLen := next.attrib.icvLen } }

/-- The loop of `recvframe_defrag`: the first fragment grows by the others; `none` when one does
not fit. -/
def defragLoop (first : RecvFrame) (curfragnum curPn : ℕ) : List RecvFrame → Option RecvFrame
  | [] => some first
  | next :: rest =>
    let pn := if next.attrib.encrypt.isAead then ccmphPn next else curPn
    if next.attrib.encrypt.isAead ∧ pn ≠ curPn + 1 then none
    else if first.keytrack ≠ next.keytrack then none
    else if curfragnum ≠ next.attrib.fragNum then none
    else
      let body := recvframePull next (next.attrib.hdrlen + next.attrib.ivLen)
      if first.tailRoom < body.len then none
      else defragLoop (defragAppend first next body.rxData) (curfragnum + 1) pn rest

def Adapter.setDefragQ (a : Adapter) (s : StaId) (q : List RecvFrame) : Adapter :=
  a.setSta s { a.sta s with defragQ := q }

/-- `recvframe_defrag` on the fragments of a station: what is not returned is freed. -/
def recvframeDefrag (a : Adapter) (s : StaId) : Option RecvFrame × Adapter :=
  match (a.sta s).defragQ with
  | [] => (none, a)
  | first :: rest =>
    let a := a.setDefragQ s rest
    let curPn := if first.attrib.encrypt.isAead then ccmphPn first else 0
    match if first.attrib.fragNum = 0 then defragLoop first 1 curPn rest else none with
    | some f => (some f, rtwFreeRecvframeQueue a rest)
    | none => (none, rtwFreeRecvframeQueue (rtwFreeRecvframe a first.id) rest)

/-- `rtw_list_insert_tail` into the `defrag_q` of a station. -/
def Adapter.queueFragment (a : Adapter) (s : StaId) (f : RecvFrame) : Adapter :=
  (a.setDefragQ s ((a.sta s).defragQ ++ [f])).emit [.defrag f]

/-- The station whose `defrag_q` takes the fragments of a frame: that of the transmitter, or the
broadcast station for other than data frames. -/
def defragSta (a : Adapter) (f : RecvFrame) : Option StaId :=
  match rtwGetStainfo a f.attrib.ta with
  | some s => some s
  | none => if getFrameType f.rxData = .data then none else rtwGetStainfo a .bcast

def RecvFrame.setKeytrack (f : RecvFrame) (keytrack : ℕ) : RecvFrame := { f with keytrack }

def queueDefrag (a : Adapter) (s : StaId) (f : RecvFrame) : Option RecvFrame × Adapter :=
  if f.attrib.mfrag then
    -- the first fragment clears the queue
    let a := if f.attrib.fragNum = 0 then rtwFreeRecvframeQueue a (a.sta s).defragQ else a
    (none, a.queueFragment s f)
  else recvframeDefrag (a.queueFragment s f) s

def chkDefragQueue (a : Adapter) (f : RecvFrame) : Option RecvFrame × Adapter :=
  if !f.attrib.mfrag ∧ f.attrib.fragNum = 0 then (some f, a)
  else if f.attrib.ra.isMcast then (none, rtwFreeRecvframe a f.id)
  else
    match defragSta a f with
    | none => (none, rtwFreeRecvframe a f.id)
    | some s => queueDefrag a s (f.setKeytrack (a.sta s).keytrack)

theorem chkDefragQueue_of_sta {a : Adapter} {f : RecvFrame} {s : StaId}
    (hwhole : ¬(!f.attrib.mfrag ∧ f.attrib.fragNum = 0)) (hmcast : ¬f.attrib.ra.isMcast)
    (hsta : defragSta a f = some s) :
    chkDefragQueue a f = queueDefrag a s (f.setKeytrack (a.sta s).keytrack) := by
  unfold chkDefragQueue
  rw [if_neg hwhole, if_neg hmcast, hsta]

def recvframeChkDefrag (crypto : Crypto) (a : Adapter) (f : RecvFrame) :
    Option RecvFrame × Adapter :=
  match chkDefragQueue a f with
  | (none, a) => (none, a)
  | (some g, a) =>
    if g.attrib.privacy then
      match recvframeChkmic crypto a g with
      | (true, g, a) => (some g, a)
      | (false, g, a) => (none, rtwFreeRecvframe a g.id)
    else (some g, a)

end Rtl88x2eu
