import Mathlib.Data.List.DropRight
import Rtl88x2eu.Recv.Conservation
import Rtl88x2eu.Recv.DefragIntegrity

/-!
# The payload that is put together from fragments

What `recvframe_defrag` makes of the queue of a station: when the fragments go together, the frame
that is returned carries the first one followed by the bodies of the others, each without its ICV
but the last, and the others are freed; else all are freed. The fragments go together when their
fragment numbers follow each other, and also the packet numbers of those under CCMP or GCMP, when
they were received under one `keytrack`, and when each body fits in what is left of the buffer of
the first.

## Main definitions

* `pieces`, `Joinable`

## Main results

* `recvframeDefrag_law`: what is returned and what is freed
* `not_recvframeDefrag_law`: consecutive fragment numbers are not enough
-/

namespace Rtl88x2eu.Defrag

def body (f : RecvFrame) : Bytes := f.rxData.drop (f.attrib.hdrlen + f.attrib.ivLen)

/-- `p` with its ICV of `icvLen` octets, and the bodies of the fragments behind it, each without its
ICV but the last. -/
def piecesFrom (p : Bytes) (icvLen : ℕ) : List RecvFrame → List Bytes
  | [] => [p]
  | next :: rest => p.rdrop icvLen :: piecesFrom (body next) next.attrib.icvLen rest

/-- The fragments without what goes. -/
def pieces : List RecvFrame → List Bytes
  | [] => []
  | first :: rest => piecesFrom first.rxData first.attrib.icvLen rest

def Long (f : RecvFrame) : Prop :=
  f.attrib.hdrlen + f.attrib.ivLen + f.attrib.icvLen ≤ f.len

/-- The fragments go behind what was put together so far: the next fragment number is `cur`, the
last packet number `pn`, and there are `room` octets behind the last one, whose ICV of `icvLen`
octets goes when another one is copied. -/
structure Follows (keytrack cur pn room icvLen : ℕ) (rest : List RecvFrame) : Prop where
  fragNum : rest.map (·.attrib.fragNum) = List.range' cur rest.length
  keytrack : ∀ f ∈ rest, f.keytrack = keytrack
  pn : (rest.filter isAead).map ccmphPn = List.range' (pn + 1) (rest.filter isAead).length
  room : ∀ k < rest.length, ((rest.take (k + 1)).map fun f => (body f).length).sum ≤
    room + ((icvLen :: rest.map (·.attrib.icvLen)).take k).sum

def firstPn (first : RecvFrame) : ℕ := if isAead first then ccmphPn first else 0

/-- **The fragments go together.** -/
structure Joinable (first : RecvFrame) (rest : List RecvFrame) : Prop where
  fragNum : (first :: rest).map (·.attrib.fragNum) = List.range (rest.length + 1)
  keytrack : ∀ f ∈ rest, f.keytrack = first.keytrack
  pn : (rest.filter isAead).map ccmphPn =
    List.range' (firstPn first + 1) (rest.filter isAead).length
  room : ∀ k < rest.length, ((rest.take (k + 1)).map fun f => (body f).length).sum ≤
    first.tailRoom + (((first :: rest).map (·.attrib.icvLen)).take k).sum

structure Freed (a a' : Adapter) (s : StaId) (ids : List ℕ) : Prop where
  defragQ : (a'.sta s).defragQ = []
  freeRecvQueue : ∀ id, id ∈ a'.freeRecvQueue ↔ id ∈ a.freeRecvQueue ∨ id ∈ ids
  freeRecvframeCnt : a'.freeRecvframeCnt = a.freeRecvframeCnt + ids.length

/-! ## One more fragment -/

section Append

variable {acc next : RecvFrame} {rest : List RecvFrame} {keytrack cur pn room icvLen : ℕ}

def EndsWithIcv (acc : RecvFrame) : Prop := acc.attrib.icvLen ≤ acc.len

theorem recvframePullTail_eq (h : EndsWithIcv acc) :
    recvframePullTail acc acc.attrib.icvLen =
      { acc with
        rxData := acc.rxData.rdrop acc.attrib.icvLen
        tailRoom := acc.tailRoom + acc.attrib.icvLen } := if_pos h

theorem recvframePull_rxData (h : Long next) :
    (recvframePull next (next.attrib.hdrlen + next.attrib.ivLen)).rxData = body next := by
  have hle : next.attrib.hdrlen + next.attrib.ivLen ≤ next.len := by
    unfold Long at h
    omega
  unfold recvframePull
  rw [if_pos hle]
  rfl

theorem rxData_defragAppend (h : EndsWithIcv acc) (p : Bytes) :
    (defragAppend acc next p).rxData = acc.rxData.rdrop acc.attrib.icvLen ++ p := by
  unfold defragAppend
  rw [recvframePullTail_eq h]
  rfl

theorem tailRoom_defragAppend (h : EndsWithIcv acc) (p : Bytes) :
    (defragAppend acc next p).tailRoom = acc.tailRoom + acc.attrib.icvLen - p.length := by
  unfold defragAppend
  rw [recvframePullTail_eq h]
  rfl

theorem id_defragAppend (acc next : RecvFrame) (p : Bytes) :
    (defragAppend acc next p).id = acc.id := by
  simp [defragAppend]

theorem endsWithIcv_defragAppend (hacc : EndsWithIcv acc) (hnext : Long next) :
    EndsWithIcv (defragAppend acc next (body next)) := by
  unfold EndsWithIcv RecvFrame.len
  rw [rxData_defragAppend hacc, List.length_append]
  unfold Long RecvFrame.len at hnext
  have hbody : (body next).length =
      next.rxData.length - (next.attrib.hdrlen + next.attrib.ivLen) := List.length_drop
  change next.attrib.icvLen ≤ _
  omega

/-- The loop copies the next fragment. -/
structure Next (keytrack cur pn room : ℕ) (next : RecvFrame) : Prop where
  fragNum : next.attrib.fragNum = cur
  keytrack : next.keytrack = keytrack
  pn : isAead next → ccmphPn next = pn + 1
  room : (body next).length ≤ room

/-- The packet number that the loop has seen last. -/
def pnAfter (pn : ℕ) (next : RecvFrame) : ℕ := if isAead next then ccmphPn next else pn

theorem defragLoop_cons (hnext : Long next) (h : Next acc.keytrack cur pn acc.tailRoom next) :
    defragLoop acc cur pn (next :: rest) =
      defragLoop (defragAppend acc next (body next)) (cur + 1) (pnAfter pn next) rest := by
  have hpn : ¬(next.attrib.encrypt.isAead = true ∧ pnAfter pn next ≠ pn + 1) := by
    rintro ⟨haead, hne⟩
    exact hne ((if_pos haead).trans (h.pn haead))
  have hroom : ¬acc.tailRoom < (body next).length := not_lt.mpr h.room
  show (if next.attrib.encrypt.isAead ∧ pnAfter pn next ≠ pn + 1 then none
    else if acc.keytrack ≠ next.keytrack then none
    else if cur ≠ next.attrib.fragNum then none
    else if acc.tailRoom < (recvframePull next _).rxData.length then none
    else defragLoop (defragAppend acc next (recvframePull next _).rxData) (cur + 1) _ rest) = _
  rw [if_neg hpn, if_neg (not_not.mpr h.keytrack.symm), if_neg (not_not.mpr h.fragNum.symm),
    recvframePull_rxData hnext, if_neg hroom]
  rfl

/-- Else the fragments are not put together. -/
theorem next_of_defragLoop {g : RecvFrame} (hnext : Long next)
    (h : defragLoop acc cur pn (next :: rest) = some g) :
    Next acc.keytrack cur pn acc.tailRoom next := by
  unfold defragLoop at h
  extract_lets pn' pulled at h
  split_ifs at h with hpn hkey hnum hroom
  have hpulled : pulled.rxData = body next := recvframePull_rxData hnext
  refine ⟨(of_not_not hnum).symm, (of_not_not hkey).symm, fun haead => ?_, ?_⟩
  · have hpn' : pn' = ccmphPn next := if_pos haead
    by_contra hne
    exact hpn ⟨haead, hpn' ▸ hne⟩
  · rw [← hpulled]
    exact not_lt.mp hroom

theorem follows_cons_iff :
    Follows keytrack cur pn room icvLen (next :: rest) ↔ Next keytrack cur pn room next ∧
      Follows keytrack (cur + 1) (pnAfter pn next) (room + icvLen - (body next).length)
        next.attrib.icvLen rest := by
  constructor
  · intro h
    have hroom : (body next).length ≤ room := by simpa using h.room 0 (by simp)
    have hnum := h.fragNum
    rw [List.map_cons, List.length_cons, List.range'_succ, List.cons.injEq] at hnum
    have hpn := h.pn
    refine ⟨⟨hnum.1, h.keytrack next List.mem_cons_self, fun haead => ?_, hroom⟩, hnum.2,
      fun f hf => h.keytrack f (List.mem_cons_of_mem _ hf), ?_, fun k hk => ?_⟩
    · rw [List.filter_cons_of_pos haead, List.map_cons, List.length_cons, List.range'_succ,
        List.cons.injEq] at hpn
      exact hpn.1
    · unfold pnAfter
      split_ifs with haead
      · rw [List.filter_cons_of_pos haead, List.map_cons, List.length_cons, List.range'_succ,
          List.cons.injEq] at hpn
        rw [hpn.1]
        exact hpn.2
      · rwa [List.filter_cons_of_neg haead] at hpn
    · have hk' := h.room (k + 1) (Nat.succ_lt_succ hk)
      simp only [List.take_succ_cons, List.map_cons, List.sum_cons] at hk'
      simp only [List.map_take] at hk' ⊢
      omega
  · rintro ⟨hnext, h⟩
    refine ⟨?_, ?_, ?_, fun k hk => ?_⟩
    · rw [List.map_cons, hnext.fragNum, h.fragNum, List.length_cons, List.range'_succ]
    · intro f hf
      rcases List.mem_cons.mp hf with rfl | hf
      · exact hnext.keytrack
      · exact h.keytrack f hf
    · have hpn := h.pn
      unfold pnAfter at hpn
      split_ifs at hpn with haead
      · rw [List.filter_cons_of_pos haead, List.map_cons, List.length_cons, List.range'_succ, hpn,
          hnext.pn haead]
      · rwa [List.filter_cons_of_neg haead]
    · cases k with
      | zero => simpa using hnext.room
      | succ k =>
        have hk' := h.room k (Nat.lt_of_succ_lt_succ hk)
        have hroom := hnext.room
        simp only [List.take_succ_cons, List.map_cons, List.sum_cons]
        simp only [List.map_take] at hk' ⊢
        omega

theorem rdrop_append {q p : Bytes} (h : icvLen ≤ p.length) :
    (q ++ p).rdrop icvLen = q ++ p.rdrop icvLen := by
  unfold List.rdrop
  rw [List.length_append, Nat.add_sub_assoc h, List.take_length_add_append]

theorem defragLoop_of_follows {q p : Bytes} (hlong : ∀ f ∈ rest, Long f)
    (hdata : acc.rxData = q ++ p) (hicv : acc.attrib.icvLen ≤ p.length)
    (h : Follows acc.keytrack cur pn acc.tailRoom acc.attrib.icvLen rest) :
    ∃ g, defragLoop acc cur pn rest = some g ∧ g.id = acc.id ∧
      g.rxData = q ++ (piecesFrom p acc.attrib.icvLen rest).flatten := by
  induction rest generalizing acc cur pn q p with
  | nil => exact ⟨acc, rfl, rfl, by simpa [piecesFrom] using hdata⟩
  | cons next rest ih =>
    obtain ⟨hnext, hrest⟩ := follows_cons_iff.mp h
    have hnextLong : Long next := hlong next List.mem_cons_self
    have hends : EndsWithIcv acc := by
      unfold EndsWithIcv RecvFrame.len
      rw [hdata, List.length_append]
      omega
    have hdata' : (defragAppend acc next (body next)).rxData =
        (q ++ p.rdrop acc.attrib.icvLen) ++ body next := by
      rw [rxData_defragAppend hends, hdata, rdrop_append hicv]
    have hbody : next.attrib.icvLen ≤ (body next).length := by
      unfold Long RecvFrame.len at hnextLong
      unfold body
      rw [List.length_drop]
      omega
    have hrest' : Follows (defragAppend acc next (body next)).keytrack (cur + 1) (pnAfter pn next)
        (defragAppend acc next (body next)).tailRoom next.attrib.icvLen rest := by
      rwa [keytrack_defragAppend, tailRoom_defragAppend hends]
    obtain ⟨g, hg, hid, hrx⟩ :=
      ih (fun f hf => hlong f (List.mem_cons_of_mem _ hf)) hdata' hbody hrest'
    refine ⟨g, (defragLoop_cons hnextLong hnext).trans hg, hid.trans (id_defragAppend _ _ _), ?_⟩
    rw [hrx, piecesFrom, List.flatten_cons, List.append_assoc]
    rfl

theorem follows_of_defragLoop {g : RecvFrame} (hacc : EndsWithIcv acc)
    (hlong : ∀ f ∈ rest, Long f) (h : defragLoop acc cur pn rest = some g) :
    Follows acc.keytrack cur pn acc.tailRoom acc.attrib.icvLen rest := by
  induction rest generalizing acc cur pn with
  | nil => exact ⟨rfl, by simp, rfl, by simp⟩
  | cons next rest ih =>
    have hnextLong : Long next := hlong next List.mem_cons_self
    have hnext := next_of_defragLoop hnextLong h
    rw [defragLoop_cons hnextLong hnext] at h
    have hrest := ih (endsWithIcv_defragAppend hacc hnextLong)
      (fun f hf => hlong f (List.mem_cons_of_mem _ hf)) h
    rw [keytrack_defragAppend, tailRoom_defragAppend hacc] at hrest
    exact follows_cons_iff.mpr ⟨hnext, hrest⟩

theorem joinable_iff {first : RecvFrame} :
    Joinable first rest ↔ first.attrib.fragNum = 0 ∧
      Follows first.keytrack 1 (firstPn first) first.tailRoom first.attrib.icvLen rest := by
  constructor
  · intro h
    have hnum := h.fragNum
    rw [List.map_cons, List.range_eq_range', List.range'_succ, List.cons.injEq] at hnum
    exact ⟨hnum.1, hnum.2, h.keytrack, h.pn, h.room⟩
  · rintro ⟨hfirst, h⟩
    refine ⟨?_, h.keytrack, h.pn, h.room⟩
    rw [List.map_cons, hfirst, h.fragNum, List.range_eq_range', List.range'_succ]

end Append

section Freed

variable {a : Adapter} {s : StaId}

theorem mem_rtwFreeRecvframe_iff (a : Adapter) (id id' : ℕ) :
    id' ∈ (rtwFreeRecvframe a id).freeRecvQueue ↔ id' ∈ a.freeRecvQueue ∨ id' = id := by
  show id' ∈ a.freeRecvQueue.filter (· ≠ id) ++ [id] ↔ _
  rw [List.mem_append, List.mem_filter, List.mem_singleton, decide_eq_true_iff]
  tauto

theorem freed_rtwFreeRecvframeQueue (q : List RecvFrame) (h : (a.sta s).defragQ ⊆ q) :
    Freed a (rtwFreeRecvframeQueue a q) s (q.map (·.id)) := by
  refine ⟨defragQ_rtwFreeRecvframeQueue h, ?_, ?_⟩
  · clear h
    induction q generalizing a with
    | nil => simp [rtwFreeRecvframeQueue]
    | cons f q ih =>
      intro id
      have hq := ih (a := rtwFreeRecvframe a f.id) id
      rw [mem_rtwFreeRecvframe_iff] at hq
      rw [List.map_cons, List.mem_cons, ← or_assoc]
      exact hq
  · clear h
    induction q generalizing a with
    | nil => simp [rtwFreeRecvframeQueue]
    | cons f q ih =>
      have hq := ih (a := rtwFreeRecvframe a f.id)
      have hf : (rtwFreeRecvframe a f.id).freeRecvframeCnt = a.freeRecvframeCnt + 1 := rfl
      rw [List.map_cons, List.length_cons]
      rw [hf] at hq
      push_cast
      rw [add_comm (_ : ℤ) 1, ← add_assoc]
      exact hq

theorem Freed.of_setDefragQ {a' : Adapter} {q : List RecvFrame} {ids : List ℕ}
    (h : Freed (a.setDefragQ s q) a' s ids) : Freed a a' s ids :=
  ⟨h.defragQ, h.freeRecvQueue, h.freeRecvframeCnt⟩

theorem Freed.of_rtwFreeRecvframe {a' : Adapter} {id : ℕ} {ids : List ℕ}
    (h : Freed (rtwFreeRecvframe a id) a' s ids) : Freed a a' s (id :: ids) := by
  refine ⟨h.defragQ, fun id' => ?_, ?_⟩
  · rw [h.freeRecvQueue, mem_rtwFreeRecvframe_iff, List.mem_cons, or_assoc]
  · have hone : (rtwFreeRecvframe a id).freeRecvframeCnt = a.freeRecvframeCnt + 1 := rfl
    rw [h.freeRecvframeCnt, hone, List.length_cons]
    push_cast
    rw [add_assoc, add_comm 1]

end Freed

/-! ## The whole queue -/

section Law

variable {a : Adapter} {s : StaId} {first : RecvFrame} {rest : List RecvFrame}

def joined (first : RecvFrame) (rest : List RecvFrame) : Option RecvFrame :=
  if first.attrib.fragNum = 0 then defragLoop first 1 (firstPn first) rest else none

theorem recvframeDefrag_of_joined {g : RecvFrame} (hq : (a.sta s).defragQ = first :: rest)
    (h : joined first rest = some g) :
    (recvframeDefrag a s).1 = some g ∧ Freed a (recvframeDefrag a s).2 s (rest.map (·.id)) := by
  have heq : recvframeDefrag a s =
      (some g, rtwFreeRecvframeQueue (a.setDefragQ s rest) rest) := by
    unfold recvframeDefrag
    unfold joined firstPn isAead at h
    rw [hq]
    dsimp only
    rw [h]
  rw [heq]
  refine ⟨rfl, (freed_rtwFreeRecvframeQueue rest ?_).of_setDefragQ⟩
  simp [Adapter.setDefragQ]

theorem recvframeDefrag_of_not_joined (hq : (a.sta s).defragQ = first :: rest)
    (h : joined first rest = none) :
    (recvframeDefrag a s).1 = none ∧
      Freed a (recvframeDefrag a s).2 s ((first :: rest).map (·.id)) := by
  have heq : recvframeDefrag a s =
      (none, rtwFreeRecvframeQueue (rtwFreeRecvframe (a.setDefragQ s rest) first.id) rest) := by
    unfold recvframeDefrag
    unfold joined firstPn isAead at h
    rw [hq]
    dsimp only
    rw [h]
  rw [heq]
  refine ⟨rfl, (freed_rtwFreeRecvframeQueue rest fun f hf => ?_).of_rtwFreeRecvframe.of_setDefragQ⟩
  simpa [Adapter.setDefragQ] using (List.mem_filter.mp hf).1

theorem exists_joined (hlong : ∀ f ∈ first :: rest, Long f) (h : Joinable first rest) :
    ∃ g, joined first rest = some g ∧ g.id = first.id ∧
      g.rxData = (pieces (first :: rest)).flatten := by
  obtain ⟨hnum, hfollows⟩ := joinable_iff.mp h
  have hicv : first.attrib.icvLen ≤ first.rxData.length := by
    have hfirst := hlong first List.mem_cons_self
    unfold Long RecvFrame.len at hfirst
    omega
  obtain ⟨g, hg, hid, hdata⟩ := defragLoop_of_follows (q := [])
    (fun f hf => hlong f (List.mem_cons_of_mem _ hf)) (List.nil_append _).symm hicv hfollows
  exact ⟨g, (if_pos hnum).trans hg, hid, hdata⟩

theorem joined_of_not_joinable (hlong : ∀ f ∈ first :: rest, Long f) (h : ¬Joinable first rest) :
    joined first rest = none := by
  unfold joined
  split_ifs with hnum
  · refine Option.eq_none_iff_forall_ne_some.mpr fun g hg => h (joinable_iff.mpr ⟨hnum, ?_⟩)
    refine follows_of_defragLoop ?_ (fun f hf => hlong f (List.mem_cons_of_mem _ hf)) hg
    have hfirst := hlong first List.mem_cons_self
    unfold EndsWithIcv
    unfold Long at hfirst
    omega
  · rfl

/-- Fragment numbers that do not follow each other from 0. -/
theorem joined_of_fragNum
    (h : (first :: rest).map (·.attrib.fragNum) ≠ List.range (rest.length + 1)) :
    joined first rest = none := by
  unfold joined
  split_ifs with hnum
  · refine Option.eq_none_iff_forall_ne_some.mpr fun g hg => h ?_
    rw [List.map_cons, hnum, (defragLoop_some hg).1, List.range_eq_range', List.range'_succ]
  · rfl

/-- **What is returned and what is freed.** Fragments that go together leave one frame, the first
one with the pieces of all, and the others are freed; of others, and whatever their lengths of those
whose fragment numbers do not follow each other from 0, nothing is left. -/
theorem recvframeDefrag_law (hq : (a.sta s).defragQ = first :: rest) :
    ((∀ f ∈ first :: rest, Long f) →
      (Joinable first rest →
        (∃ g, (recvframeDefrag a s).1 = some g ∧ g.id = first.id ∧
          g.rxData = (pieces (first :: rest)).flatten ∧
          g.len = ((pieces (first :: rest)).map List.length).sum) ∧
        Freed a (recvframeDefrag a s).2 s (rest.map (·.id))) ∧
      (¬Joinable first rest → (recvframeDefrag a s).1 = none ∧
        Freed a (recvframeDefrag a s).2 s ((first :: rest).map (·.id)))) ∧
    ((first :: rest).map (·.attrib.fragNum) ≠ List.range (rest.length + 1) →
      (recvframeDefrag a s).1 = none ∧
        Freed a (recvframeDefrag a s).2 s ((first :: rest).map (·.id))) := by
  refine ⟨fun hlong => ⟨fun h => ?_, fun h => ?_⟩, fun h => ?_⟩
  · obtain ⟨g, hg, hid, hdata⟩ := exists_joined hlong h
    obtain ⟨hret, hfreed⟩ := recvframeDefrag_of_joined hq hg
    refine ⟨⟨g, hret, hid, hdata, ?_⟩, hfreed⟩
    unfold RecvFrame.len
    rw [hdata, List.length_flatten]
  · exact recvframeDefrag_of_not_joined hq (joined_of_not_joinable hlong h)
  · exact recvframeDefrag_of_not_joined hq (joined_of_fragNum h)

end Law

def openedFragment (id fragNum : ℕ) (mfrag : Bool) (pn : UInt8) (payload : Bytes) : RecvFrame :=
  let f := ccmpFragment id 5 fragNum mfrag pn
  { f with
    rxData := f.rxData.take 34 ++ payload ++ List.replicate 8 0xee
    attrib := { f.attrib with icvLen := 8 } }

def waitingAdapter (fs : List RecvFrame) : Adapter := peerAdapter.setDefragQ 0 fs

theorem recvframeDefrag_law_pair :
    let first := openedFragment 1 0 true 1 [1, 2, 3]
    let last := openedFragment 2 1 false 2 [4, 5]
    (∃ g, (recvframeDefrag (waitingAdapter [first, last]) 0).1 = some g ∧ g.id = 1 ∧
      g.rxData.drop 34 = [1, 2, 3, 4, 5] ++ List.replicate 8 0xee) ∧
    Freed (waitingAdapter [first, last]) (recvframeDefrag (waitingAdapter [first, last]) 0).2 0
      [2] := by
  intro first last
  have hlong : ∀ f ∈ [first, last], Long f := by
    unfold Long
    decide
  have hjoin : Joinable first [last] := ⟨by decide, by decide, by decide, by decide⟩
  obtain ⟨⟨g, hret, hid, hdata, -⟩, hfreed⟩ :=
    ((recvframeDefrag_law (a := waitingAdapter [first, last]) (s := 0) rfl).1 hlong).1 hjoin
  refine ⟨⟨g, hret, hid, ?_⟩, hfreed⟩
  rw [hdata]
  decide

/-- **Consecutive fragment numbers are not enough**: the packet numbers have a gap. -/
theorem not_recvframeDefrag_law :
    ¬ ∀ (a : Adapter) (s : StaId) (first : RecvFrame) (rest : List RecvFrame),
      (a.sta s).defragQ = first :: rest → (∀ f ∈ first :: rest, Long f) →
      (first :: rest).map (·.attrib.fragNum) = List.range (rest.length + 1) →
      ∃ g, (recvframeDefrag a s).1 = some g ∧ g.rxData = (pieces (first :: rest)).flatten := by
  intro hclaim
  have hlong : ∀ f ∈ [openedFragment 1 0 true 1 [1, 2, 3], openedFragment 2 1 false 3 [4, 5]],
      Long f := by
    unfold Long
    decide
  obtain ⟨g, hg, -⟩ := hclaim (waitingAdapter [openedFragment 1 0 true 1 [1, 2, 3],
    openedFragment 2 1 false 3 [4, 5]]) 0 _ _ rfl hlong (by decide)
  revert hg
  exact ne_of_eq_of_ne (by decide) (Option.some_ne_none g).symm

end Rtl88x2eu.Defrag
