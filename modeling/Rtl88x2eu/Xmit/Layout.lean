import Rtl88x2eu.Xmit.Dump
import Rtl88x2eu.Xmit.MgntCoalesce

/-!
# Where the fragments of a frame are

A frame that does not fit `frag_len` is cut. The loop that writes the fragments puts room for a
descriptor before each of them. The Michael code, the software ciphers and the submission then look
for the fragments again, each by its own arithmetic: the code and the ciphers leave out the room for
the descriptors and count the four octets of the FCS as data, and the submission takes the tag off
fragments that were cut without room for it.

## Main definitions

* `mpduSizes`, `place`
* `micSpans`, `encryptSpans`, `rtwDumpXframe`: where the three walks look
* `Written`, `Found`: what is asked of the fragments

## Main results

* `coalesceLoop_laid`: the loop writes what it is given
* `layout_found_iff`: which frames are found again
* `not_layout_found`: a frame that is cut in two, under CCMP in hardware
-/

namespace Rtl88x2eu.Xmit

open Memory

def mpduHead (p : PktAttrib) : ℕ := p.hdrlen + p.ivLen + icvRoom p

/-- The sizes of the fragments after the first one, for `n` octets. -/
def furtherSizes (a : Adapter) (p : PktAttrib) (n : ℕ) : List ℕ :=
  List.replicate ((n - 1) / mpduLen a p false) (a.fragLen - 4) ++
    [mpduHead p + ((n - 1) % mpduLen a p false + 1)]

/-- The sizes of the fragments of `n` octets. -/
def mpduSizes (a : Adapter) (p : PktAttrib) (n : ℕ) : List ℕ :=
  if n ≤ mpduLen a p true then [mpduHead p + (8 + n)]
  else (a.fragLen - 4) :: furtherSizes a p (n - mpduLen a p true)

/-- Fragments one after another. -/
def place (room : ℕ) : ℕ → List ℕ → List Fragment
  | _, [] => []
  | start, n :: ns => ⟨start, n⟩ :: place room (rnd4 (start + n) + room) ns

def payloadSpan (p : PktAttrib) (g : Fragment) : Fragment :=
  ⟨g.start + p.hdrlen + p.ivLen, g.len - mpduHead p⟩

def moreFrag (m : Mem) (g : Fragment) : Bool := m (g.start + 1) &&& 0x04 != 0

/-- **The fragments hold the data**, and the bit is set in all but the last one. -/
structure Holding (p : PktAttrib) (m : Mem) (data : Bytes) (gs : List Fragment) : Prop where
  data : (gs.map (payloadSpan p)).flatMap (fun g => read m g.start g.len) = data
  more : gs.map (moreFrag m) = List.replicate (gs.length - 1) true ++ [false]

/-- What `xmitframe_addmic` takes the code over. -/
def micSpans (a : Adapter) (p : PktAttrib) : ℕ → ℕ → List Fragment
  | 0, _ => []
  | k + 1, payload =>
    let payload := rnd4 payload + p.hdrlen + p.ivLen
    if k = 0 then [⟨payload, p.lastTxcmdsz - p.hdrlen - p.ivLen - icvRoom p⟩]
    else
      let length := a.fragLen - p.hdrlen - p.ivLen - icvRoom p
      ⟨payload, length⟩ :: micSpans a p k (payload + length + p.icvLen)

def encryptSpans (a : Adapter) (p : PktAttrib) : ℕ → ℕ → List Fragment
  | 0, _ => []
  | k + 1, pframe =>
    if k = 0 then
      [⟨pframe + p.hdrlen + p.ivLen, p.lastTxcmdsz - p.hdrlen - p.ivLen - p.icvLen⟩]
    else
      ⟨pframe + p.hdrlen + p.ivLen, a.fragLen - p.hdrlen - p.ivLen - p.icvLen⟩ ::
        encryptSpans a p k (rnd4 (pframe + a.fragLen))

/-- The loop of `rtw_dump_xframe`, with `n` fragments to go. -/
def dumpLoop (hal : TxHal) (a : Adapter) (buf : ℕ) : ℕ → ℕ → Dump → List Submission
  | 0, _, _ => []
  | n + 1, t, d =>
    let r := dumpFragment hal a buf t d
    r.2 :: dumpLoop hal a buf n (t + 1) r.1

def rtwDumpXframe (hal : TxHal) (a : Adapter) (buf : ℕ) (m : Mem) (f : XmitFrame) :
    List Submission :=
  dumpLoop hal a buf f.attrib.nrFrags 0 ⟨m, f, f.bufAddr⟩

def Submission.span (s : Submission) : Fragment := ⟨s.addr + s.header, s.len - s.header⟩

section Walks

variable {c : TxCrypto} {a : Adapter} {p : PktAttrib} {m : Mem}

end Walks

/-! ## The loop that writes -/

/-- The sizes in which frames are cut. -/
structure Cuttable (a : Adapter) (p : PktAttrib) : Prop where
  ra : p.ra.isMcast = false
  hdrlen : 2 ≤ p.hdrlen
  head : mpduHead p ≤ 50
  icvLen : p.icvLen ≤ 16
  fragLen : 256 ≤ a.fragLen
  fragLen_le : a.fragLen ≤ 2346

section Loop

variable {a : Adapter} {f : XmitFrame} {m m' : Mem} {fuel start inx : ℕ} {rest data : Bytes}
  {frags gs : List Fragment}

theorem Ready.icvLen_le {p : PktAttrib} {pkt : Bytes} (h : Ready p pkt) : p.icvLen ≤ 16 := by
  rw [h.icvLen]
  cases p.encrypt <;> decide

theorem Ready.cuttable {p : PktAttrib} {pkt : Bytes} (h : Ready p pkt)
    (hra : p.ra.isMcast = false) (hlo : 256 ≤ a.fragLen) (hhi : a.fragLen ≤ 2346) :
    Cuttable a p where
  ra := hra
  hdrlen := le_trans (by decide) h.hdrlen_ge
  head := by
    have hiv : p.ivLen ≤ 8 := by
      rw [h.ivLen]
      cases p.encrypt <;> decide
    have hicv : icvRoom p ≤ 16 := by
      unfold icvRoom
      split_ifs
      · exact h.icvLen_le
      · exact Nat.zero_le 16
    have hhdr : p.hdrlen ≤ 26 := by rcases h.hdrlen with h | h <;> rw [h] <;> decide
    unfold mpduHead
    omega
  icvLen := h.icvLen_le
  fragLen := hlo
  fragLen_le := hhi

theorem Cuttable.mpduLen {p : PktAttrib} (h : Cuttable a p) (first : Bool) :
    mpduHead p + (if first then 8 else 0) + mpduLen a p first = a.fragLen - 4 ∧
      0 < mpduLen a p first := by
  obtain ⟨-, -, hhead, -, hlo, hhi⟩ := h
  unfold Xmit.mpduLen
  unfold mpduHead at *
  cases first <;> simp only [Bool.false_eq_true, if_true, if_false] <;> omega

theorem le_rnd4 (x : ℕ) : x ≤ rnd4 x := by
  unfold rnd4
  split <;> omega

/-- What stands after the header of a fragment. -/
def fragBody (p : PktAttrib) (llc data : Bytes) : Bytes :=
  octets p.iv p.ivLen ++ llc ++ data ++ octets p.icv (icvRoom p)

/-- The memory after a fragment was written. -/
def fragMem (p : PktAttrib) (m : Mem) (start : ℕ) (llc data : Bytes) : Mem :=
  write (setMFrag m start) (start + p.hdrlen) (fragBody p llc data)

theorem length_fragBody (p : PktAttrib) (llc data : Bytes) :
    (fragBody p llc data).length = p.ivLen + (llc.length + data.length) + icvRoom p := by
  simp [fragBody, Nat.add_assoc]

def llcOf (f : XmitFrame) (inx : ℕ) : Bytes := if inx = 0 then putSnap f.attrib.etherType else []

theorem loop_stop (hra : f.attrib.ra.isMcast = false)
    (hrest : rest.length ≤ mpduLen a f.attrib (inx = 0)) :
    coalesceLoop a f (fuel + 1) m start inx rest frags = some
      { mem := clearMFrag (fragMem f.attrib m start (llcOf f inx) rest) start
        nrFrags := (inx + 1) % 256
        lastTxcmdsz := f.attrib.hdrlen + f.attrib.ivLen +
          (if (inx + 1) % 256 = 1 then (llcOf f inx).length else 0) + icvRoom f.attrib + rest.length
        frags := frags ++
          [⟨start, mpduHead f.attrib + ((llcOf f inx).length + rest.length)⟩] } := by
  have hchunk : chunk a f.attrib (inx = 0) rest = rest := by
    unfold chunk
    rw [hra, if_neg Bool.false_ne_true, List.take_of_length_le hrest]
  have hsize : f.attrib.hdrlen + (fragBody f.attrib (llcOf f inx) rest).length =
      mpduHead f.attrib + ((llcOf f inx).length + rest.length) := by
    rw [length_fragBody, mpduHead]
    omega
  simp only [coalesceLoop, hchunk, List.drop_length, List.isEmpty_nil, Bool.or_true, if_true]
  rw [← llcOf, ← fragBody, Nat.add_assoc start, Nat.add_sub_cancel_left, hsize]
  rfl

theorem loop_go (hra : f.attrib.ra.isMcast = false)
    (hrest : mpduLen a f.attrib (inx = 0) < rest.length) :
    let n := mpduLen a f.attrib (inx = 0)
    let size := mpduHead f.attrib + ((llcOf f inx).length + n)
    let m₁ := fragMem f.attrib m start (llcOf f inx) (rest.take n)
    let next := rnd4 (start + size) + hwHdrOffset f
    coalesceLoop a f (fuel + 1) m start inx rest frags =
      coalesceLoop a f fuel (write m₁ next (read m₁ f.memStart f.attrib.hdrlen)) next (inx + 1)
        (rest.drop n) (frags ++ [⟨start, size⟩]) := by
  have hchunk : chunk a f.attrib (inx = 0) rest = rest.take (mpduLen a f.attrib (inx = 0)) := by
    unfold chunk
    rw [hra, if_neg Bool.false_ne_true]
  have htake : (rest.take (mpduLen a f.attrib (inx = 0))).length =
      mpduLen a f.attrib (inx = 0) := by
    rw [List.length_take]
    omega
  have hsize : f.attrib.hdrlen + (fragBody f.attrib (llcOf f inx)
      (rest.take (mpduLen a f.attrib (inx = 0)))).length =
        mpduHead f.attrib + ((llcOf f inx).length + mpduLen a f.attrib (inx = 0)) := by
    rw [length_fragBody, mpduHead, htake]
    omega
  have hmore : (f.attrib.ra.isMcast ||
      (rest.drop (mpduLen a f.attrib (inx = 0))).isEmpty) = false := by
    rw [hra, Bool.false_or, List.isEmpty_eq_false_iff, ne_eq, List.drop_eq_nil_iff]
    omega
  simp only [coalesceLoop, hchunk, htake, hmore, Bool.false_eq_true, if_false]
  rw [← llcOf, ← fragBody, Nat.add_assoc start, Nat.add_sub_cancel_left, hsize]
  rfl

theorem fragMem_below {p : PktAttrib} (llc data : Bytes) :
    AgreeBelow start m (fragMem p m start llc data) :=
  (agreeBelow_write (by omega)).trans (agreeBelow_write (by omega))

/-- The bit of `SetMFrag` is set, and the one of `ClearMFrag` is not. -/
theorem mFrag_bits (x : UInt8) : ((x ||| 0x04) &&& 0x04 != 0) = true ∧
    ((x &&& 0xfb) &&& 0x04 != 0) = false := by
  constructor
  · rw [bne_iff_ne]
    intro h
    have hbit := congrArg (fun y : UInt8 => y.toBitVec.getLsbD 2) h
    simp at hbit
  · have hmask : (0xfb : UInt8) &&& 0x04 = 0 := by decide
    rw [UInt8.and_assoc, hmask, UInt8.and_zero]
    rfl

theorem holding_fragMem {p : PktAttrib} {llc : Bytes} (hhdr : 2 ≤ p.hdrlen) {n : ℕ}
    (hn : n = llc.length + data.length)
    (hm' : AgreeBelow (start + (mpduHead p + n)) (fragMem p m start llc data) m') :
    read m' (start + p.hdrlen + p.ivLen) n = llc ++ data ∧
      moreFrag m' ⟨start, mpduHead p + n⟩ = true := by
  subst hn
  have hbody := length_fragBody p llc data
  constructor
  · have hread : read m' (start + p.hdrlen + p.ivLen) (llc.length + data.length) =
        read (fragMem p m start llc data) (start + p.hdrlen + p.ivLen)
          (llc.length + data.length) := by
      refine read_congr fun i _ hi => hm' i ?_
      unfold mpduHead
      omega
    rw [hread, fragMem, read_write_part (by omega), fragBody, List.append_assoc, List.append_assoc,
      List.drop_left' (length_octets _ _), ← List.append_assoc, ← List.length_append,
      List.take_left]
  · have hbyte : m' (start + 1) = m (start + 1) ||| 0x04 := by
      rw [hm' _ (by unfold mpduHead; omega), fragMem, write_of_lt (by omega), setMFrag,
        write_singleton_self]
    rw [moreFrag, hbyte]
    exact (mFrag_bits _).1

theorem holding_last {p : PktAttrib} {llc : Bytes} (hhdr : 2 ≤ p.hdrlen) :
    Holding p (clearMFrag (fragMem p m start llc data) start) (llc ++ data)
      [⟨start, mpduHead p + (llc.length + data.length)⟩] := by
  have hagree : AgreeBelow (start + (mpduHead p + (llc.length + data.length)))
      (fragMem p m start llc data) (fragMem p m start llc data) := AgreeBelow.refl _ _
  obtain ⟨hdata, -⟩ := holding_fragMem hhdr rfl hagree
  refine ⟨?_, ?_⟩
  · simp only [payloadSpan, List.map_cons, List.map_nil, List.flatMap_cons, List.flatMap_nil,
      List.append_nil, Nat.add_sub_cancel_left]
    rw [clearMFrag, read_write_of_disjoint, hdata]
    rw [List.length_singleton]
    omega
  · have hbyte : clearMFrag (fragMem p m start llc data) start (start + 1) =
        fragMem p m start llc data (start + 1) &&& 0xfb := write_singleton_self
    simp only [moreFrag, List.map_cons, List.map_nil, List.length_singleton, Nat.sub_self,
      List.replicate_zero, List.nil_append]
    rw [hbyte, (mFrag_bits _).2]

/-- A fragment in front of others that hold the rest. -/
theorem Holding.cons {p : PktAttrib} {n : ℕ} {head : Bytes} {g : Fragment} (h : Holding p m data gs)
    (hgs : gs ≠ []) (hread : read m (g.start + p.hdrlen + p.ivLen) n = head)
    (hlen : g.len = mpduHead p + n) (hmore : moreFrag m g = true) :
    Holding p m (head ++ data) (g :: gs) := by
  refine ⟨?_, ?_⟩
  · rw [List.map_cons, List.flatMap_cons, h.data, payloadSpan, hlen, Nat.add_sub_cancel_left, hread]
  · obtain ⟨k, hk⟩ : ∃ k, gs.length = k + 1 :=
      Nat.exists_eq_succ_of_ne_zero (List.length_pos_iff.mpr hgs).ne'
    rw [List.map_cons, h.more, hmore, List.length_cons, hk]
    rfl

theorem furtherSizes_last {p : PktAttrib} {n : ℕ} (hn : 0 < n) (hle : n ≤ mpduLen a p false) :
    furtherSizes a p n = [mpduHead p + n] := by
  have hdiv : (n - 1) / mpduLen a p false = 0 := Nat.div_eq_of_lt (by omega)
  have hmod : (n - 1) % mpduLen a p false = n - 1 := Nat.mod_eq_of_lt (by omega)
  rw [furtherSizes, hdiv, hmod, List.replicate_zero, List.nil_append, Nat.sub_add_cancel hn]

theorem furtherSizes_cons {p : PktAttrib} {n : ℕ} (hpos : 0 < mpduLen a p false)
    (hlt : mpduLen a p false < n) :
    furtherSizes a p n = (a.fragLen - 4) :: furtherSizes a p (n - mpduLen a p false) := by
  have hsub : n - 1 = (n - mpduLen a p false - 1) + mpduLen a p false := by omega
  have hdiv :
      (n - 1) / mpduLen a p false = (n - mpduLen a p false - 1) / mpduLen a p false + 1 := by
    rw [hsub, Nat.add_div_right _ hpos]
  have hmod : (n - 1) % mpduLen a p false = (n - mpduLen a p false - 1) % mpduLen a p false := by
    rw [hsub, Nat.add_mod_right]
  rw [furtherSizes, hdiv, hmod, List.replicate_succ, List.cons_append]
  rfl

/-- What the loop leaves of the octets that are to be written as fragments of these sizes. -/
structure Laid (f : XmitFrame) (m : Mem) (start inx : ℕ) (sizes : List ℕ) (data : Bytes)
    (frags : List Fragment) (cut : Cut) : Prop where
  frags : cut.frags = frags ++ place (hwHdrOffset f) start sizes
  nrFrags : cut.nrFrags = (inx + sizes.length) % 256
  last : sizes.getLast? = some cut.lastTxcmdsz
  below : AgreeBelow start m cut.mem
  holding : Holding f.attrib cut.mem data (place (hwHdrOffset f) start sizes)

theorem laid_last (m : Mem) (fuel start inx : ℕ) (rest : Bytes) (frags : List Fragment)
    (hcut : Cuttable a f.attrib) (hrest : rest.length ≤ mpduLen a f.attrib (inx = 0)) :
    ∃ cut, coalesceLoop a f (fuel + 1) m start inx rest frags = some cut ∧
      Laid f m start inx [mpduHead f.attrib + ((llcOf f inx).length + rest.length)]
        (llcOf f inx ++ rest) frags cut := by
  refine ⟨_, loop_stop hcut.ra hrest, rfl, rfl, ?_, ?_, holding_last hcut.hdrlen⟩
  · have hllc : (if (inx + 1) % 256 = 1 then (llcOf f inx).length else 0) =
        (llcOf f inx).length := by
      unfold llcOf
      by_cases hinx : inx = 0
      · rw [if_pos hinx, hinx]
        rfl
      · rw [if_neg hinx, List.length_nil, ite_self]
    have hsize : mpduHead f.attrib + ((llcOf f inx).length + rest.length) =
        f.attrib.hdrlen + f.attrib.ivLen + (llcOf f inx).length + icvRoom f.attrib +
          rest.length := by
      unfold mpduHead
      omega
    rw [List.getLast?_singleton, hllc, hsize]
  · exact (fragMem_below _ _).trans (agreeBelow_write (by omega))

theorem laid_cons (m : Mem) (fuel start inx : ℕ) (rest : Bytes) (frags : List Fragment)
    (hcut : Cuttable a f.attrib) (hrest : mpduLen a f.attrib (inx = 0) < rest.length)
    {sizes : List ℕ} (hsizes : sizes ≠ [])
    (h : ∀ m start frags, ∃ cut,
      coalesceLoop a f fuel m start (inx + 1) (rest.drop (mpduLen a f.attrib (inx = 0))) frags =
          some cut ∧
        Laid f m start (inx + 1) sizes (rest.drop (mpduLen a f.attrib (inx = 0))) frags cut) :
    ∃ cut, coalesceLoop a f (fuel + 1) m start inx rest frags = some cut ∧
      Laid f m start inx ((a.fragLen - 4) :: sizes) (llcOf f inx ++ rest) frags cut := by
  set n := mpduLen a f.attrib (inx = 0) with hn
  have hsize : mpduHead f.attrib + ((llcOf f inx).length + n) = a.fragLen - 4 := by
    obtain ⟨hsum, -⟩ := hcut.mpduLen (decide (inx = 0))
    unfold llcOf
    by_cases hinx : inx = 0 <;> simp only [hinx, decide_true, decide_false, if_true, if_false,
      Bool.false_eq_true, length_putSnap, List.length_nil] at hsum hn ⊢ <;> omega
  have htake : (rest.take n).length = n := by
    rw [List.length_take]
    omega
  obtain ⟨cut, hloop, hfrags, hnr, hlast, hbelow, hholding⟩ :=
    h (write (fragMem f.attrib m start (llcOf f inx) (rest.take n))
        (rnd4 (start + (mpduHead f.attrib + ((llcOf f inx).length + n))) + hwHdrOffset f)
        (read (fragMem f.attrib m start (llcOf f inx) (rest.take n)) f.memStart f.attrib.hdrlen))
      (rnd4 (start + (mpduHead f.attrib + ((llcOf f inx).length + n))) + hwHdrOffset f)
      (frags ++ [⟨start, mpduHead f.attrib + ((llcOf f inx).length + n)⟩])
  have hnext := le_rnd4 (start + (mpduHead f.attrib + ((llcOf f inx).length + n)))
  have hagree : AgreeBelow (start + (mpduHead f.attrib + ((llcOf f inx).length + n)))
      (fragMem f.attrib m start (llcOf f inx) (rest.take n)) cut.mem :=
    (agreeBelow_write (by omega)).trans (hbelow.mono (by omega))
  obtain ⟨hread, hmore⟩ := holding_fragMem hcut.hdrlen (by rw [htake]) hagree
  have hplace : place (hwHdrOffset f) start ((a.fragLen - 4) :: sizes) =
      ⟨start, mpduHead f.attrib + ((llcOf f inx).length + n)⟩ ::
        place (hwHdrOffset f)
          (rnd4 (start + (mpduHead f.attrib + ((llcOf f inx).length + n))) + hwHdrOffset f)
          sizes := by
    rw [hsize]
    rfl
  refine ⟨cut, (loop_go hcut.ra hrest).trans hloop, ?_, ?_, ?_, ?_, ?_⟩
  · rw [hfrags, hplace, List.append_assoc]
    rfl
  · rw [hnr, List.length_cons]
    exact congrArg (· % 256) (by omega)
  · obtain ⟨size, sizes, rfl⟩ := List.exists_cons_of_ne_nil hsizes
    rw [List.getLast?_cons_cons, hlast]
  · exact (fragMem_below _ _).trans (hagree.mono (by omega))
  · rw [hplace, ← List.take_append_drop n rest, ← List.append_assoc]
    refine hholding.cons ?_ hread rfl hmore
    obtain ⟨size, sizes, rfl⟩ := List.exists_cons_of_ne_nil hsizes
    exact List.cons_ne_nil _ _

theorem furtherSizes_ne_nil {p : PktAttrib} {n : ℕ} : furtherSizes a p n ≠ [] := by
  simp [furtherSizes]

/-- The fragments after the first one. -/
theorem laid_further (hcut : Cuttable a f.attrib) (hinx : 0 < inx) (hne : rest ≠ [])
    (hfuel : rest.length ≤ fuel) :
    ∃ cut, coalesceLoop a f fuel m start inx rest frags = some cut ∧
      Laid f m start inx (furtherSizes a f.attrib rest.length) rest frags cut := by
  have hllc (inx : ℕ) (h : 0 < inx) : llcOf f inx = [] := if_neg h.ne'
  have hfirst : decide (inx = 0) = false := decide_eq_false hinx.ne'
  induction fuel generalizing m start inx rest frags with
  | zero => exact absurd (List.eq_nil_of_length_eq_zero (Nat.le_zero.mp hfuel)) hne
  | succ fuel ih =>
    obtain ⟨-, hpos⟩ := hcut.mpduLen false
    have hlen : 0 < rest.length := List.length_pos_iff.mpr hne
    rcases Nat.lt_or_ge (mpduLen a f.attrib false) rest.length with hlt | hle
    · have hdrop : rest.drop (mpduLen a f.attrib false) ≠ [] := by
        rw [ne_eq, List.drop_eq_nil_iff]
        omega
      have hlaid := laid_cons m fuel start inx rest frags hcut
        (by rw [hfirst]; exact hlt) furtherSizes_ne_nil fun m start frags => by
          rw [hfirst]
          refine ih (Nat.succ_pos inx) hdrop ?_ (decide_eq_false (Nat.succ_ne_zero inx))
          rw [List.length_drop]
          omega
      rw [hllc inx hinx, List.nil_append, List.length_drop,
        ← furtherSizes_cons hpos hlt] at hlaid
      exact hlaid
    · have hlaid := laid_last m fuel start inx rest frags hcut
        (by rw [hfirst]; exact hle)
      rw [hllc inx hinx, List.length_nil, Nat.zero_add, List.nil_append,
        ← furtherSizes_last hlen hle] at hlaid
      exact hlaid

/-- **The loop writes what it is given**: the LLC header and the packet. -/
theorem coalesceLoop_laid (hcut : Cuttable a f.attrib) :
    ∃ cut, coalesceLoop a f (f.payload.length + 2) m f.memStart 0 f.payload [] = some cut ∧
      Laid f m f.memStart 0 (mpduSizes a f.attrib f.payload.length)
        (putSnap f.attrib.etherType ++ f.payload) [] cut := by
  have hllc : llcOf f 0 = putSnap f.attrib.etherType := if_pos rfl
  have hfirst : decide ((0 : ℕ) = 0) = true := rfl
  rw [mpduSizes]
  split_ifs with hone
  · have hlaid := laid_last m (f.payload.length + 1) f.memStart 0 f.payload [] hcut
      (by rw [hfirst]; exact hone)
    rwa [hllc, length_putSnap] at hlaid
  · have hdrop : f.payload.drop (mpduLen a f.attrib true) ≠ [] := by
      rw [ne_eq, List.drop_eq_nil_iff]
      omega
    have hlaid := laid_cons m (f.payload.length + 1) f.memStart 0 f.payload [] hcut
      (by rw [hfirst]; exact Nat.not_le.mp hone)
      furtherSizes_ne_nil fun m start frags => by
        rw [hfirst]
        exact laid_further hcut Nat.one_pos hdrop (by rw [List.length_drop]; omega)
    rwa [hllc, List.length_drop] at hlaid

end Loop

section Spans

variable {a : Adapter} {p : PktAttrib} {k start n : ℕ}

theorem length_micSpans : (micSpans a p k start).length = k := by
  induction k generalizing start with
  | zero => rfl
  | succ k ih =>
    simp only [micSpans]
    split_ifs with hk
    · rw [hk]
      rfl
    · rw [List.length_cons, ih]

theorem length_encryptSpans : (encryptSpans a p k start).length = k := by
  induction k generalizing start with
  | zero => rfl
  | succ k ih =>
    simp only [encryptSpans]
    split_ifs with hk
    · rw [hk]
      rfl
    · rw [List.length_cons, ih]

theorem rnd4_of_aligned (h : start % 4 = 0) : rnd4 start = start := by
  unfold rnd4
  rw [if_pos h]
  omega

/-- The only fragment of a frame is where the code is taken. -/
theorem micSpans_one (halign : start % 4 = 0) :
    micSpans a p 1 start = [payloadSpan p ⟨start, p.lastTxcmdsz⟩] := by
  simp only [micSpans, if_true, rnd4_of_aligned halign, payloadSpan, mpduHead]
  congr 2
  omega

theorem encryptSpans_one (hsw : p.bswenc = true) :
    encryptSpans a p 1 start = [payloadSpan p ⟨start, p.lastTxcmdsz⟩] := by
  simp only [encryptSpans, if_true, payloadSpan, mpduHead, icvRoom, hsw]
  congr 2
  omega

theorem micSpans_ne (hcut : Cuttable a p) {room : ℕ} {sizes : List ℕ} (hsizes : sizes ≠ []) :
    micSpans a p k start ≠
      (place room start ((a.fragLen - 4) :: sizes)).map (payloadSpan p) := by
  intro h
  obtain ⟨-, -, hhead, -, hlo, -⟩ := hcut
  obtain ⟨size, sizes, rfl⟩ := List.exists_cons_of_ne_nil hsizes
  have hlen := congrArg List.length h
  rw [length_micSpans] at hlen
  obtain ⟨k, rfl⟩ : ∃ j, k = j + 2 := ⟨k - 2, by simp [place] at hlen; omega⟩
  have hspan := congrArg (fun gs => (gs.head?).map Fragment.len) h
  simp only [micSpans, place, payloadSpan, List.map_cons, List.head?_cons, Option.map_some,
    Nat.succ_ne_zero, if_false, Option.some.injEq] at hspan
  unfold mpduHead at *
  omega

theorem encryptSpans_ne (hcut : Cuttable a p) (hsw : p.bswenc = true) {room : ℕ} {sizes : List ℕ}
    (hsizes : sizes ≠ []) :
    encryptSpans a p k start ≠
      (place room start ((a.fragLen - 4) :: sizes)).map (payloadSpan p) := by
  intro h
  obtain ⟨-, -, hhead, -, hlo, -⟩ := hcut
  obtain ⟨size, sizes, rfl⟩ := List.exists_cons_of_ne_nil hsizes
  have hlen := congrArg List.length h
  rw [length_encryptSpans] at hlen
  obtain ⟨k, rfl⟩ : ∃ j, k = j + 2 := ⟨k - 2, by simp [place] at hlen; omega⟩
  have hspan := congrArg (fun gs => (gs.head?).map Fragment.len) h
  simp only [encryptSpans, place, payloadSpan, List.map_cons, List.head?_cons, Option.map_some,
    Nat.succ_ne_zero, if_false, Option.some.injEq] at hspan
  unfold mpduHead icvRoom at *
  rw [hsw] at *
  simp only [if_true] at *
  omega

end Spans

/-! ## The submission -/

section Submissions

variable {hal : TxHal} {a : Adapter} {buf t n : ℕ} {d : Dump} {start sz : ℕ}

def pulled (hal : TxHal) (sz : ℕ) : Bool :=
  !hal.mpMode && !rtwUsbBulkSizeBoundary hal (txdescSize + sz)

/-- The loop variables of `rtw_dump_xframe` in front of a fragment. -/
structure Ahead (d : Dump) (start : ℕ) : Prop where
  qsel : d.frame.attrib.qsel ≠ qselH2cCmd
  memAddr : d.memAddr + 56 = start
  pktOffset : d.frame.pktOffset ≤ 1

theorem pull_updateTxdesc (hal : TxHal) (f : XmitFrame) (m : Mem) (pmem sz : ℕ) :
    (updateTxdesc hal f m pmem sz false).pull = pulled hal sz := by
  simp [updateTxdesc, pulled]

theorem nextMemAddr_eq {memAddr wSz : ℕ} (h : wSz < 8192) :
    nextMemAddr memAddr (wSz % 2 ^ 32) = rnd4 (memAddr + wSz) := by
  have hmod : wSz % 2 ^ 32 % 2 ^ 32 = wSz := by omega
  unfold nextMemAddr signed32
  rw [hmod, if_pos (by omega)]
  exact congrArg rnd4 (by omega)

theorem dumpFragment_pulled (buf : ℕ) (h : Ahead d start) (hsz : dumpSize a d.frame.attrib t = sz)
    (hsmall : sz < 4096) (hpull : pulled hal sz = true) :
    let r := dumpFragment hal a buf t d
    Ahead r.1 (rnd4 (start + sz) + 56) ∧ r.1.frame.bufAddr < r.1.memAddr ∧
      r.1.frame.attrib = d.frame.attrib ∧
      r.2.span = ⟨start, sz⟩ := by
  obtain ⟨hqsel, hmem, hoffset⟩ := h
  have hdesc : txdescSize = 48 := rfl
  have hroom : packetOffsetSz = 8 := rfl
  have hframe := pktOffset_updateTxdesc hal d.frame d.mem d.memAddr sz false
  have hpull' := (pull_updateTxdesc hal d.frame d.mem d.memAddr sz).trans hpull
  rw [if_pos hpull'] at hframe
  have hzero : d.frame.pktOffset - 1 = 0 := by omega
  have hnext : nextMemAddr (d.memAddr + packetOffsetSz) ((sz + txdescSize) % 2 ^ 32) =
      rnd4 (start + sz) := by
    rw [nextMemAddr_eq (by omega)]
    exact congrArg rnd4 (by omega)
  rw [dumpFragment]
  simp only [hsz, if_neg hqsel, if_pos hpull', hframe, hnext, hzero]
  refine ⟨⟨hqsel, rfl, Nat.zero_le 1⟩, ?_, trivial, ?_⟩
  · have hle := le_rnd4 (start + sz)
    omega
  · simp only [Submission.span, Submission.header, Fragment.mk.injEq, hdesc, hroom]
    omega

theorem dumpFragment_still (buf : ℕ) (h : Ahead d start) (hbuf : d.frame.bufAddr ≤ d.memAddr)
    (hsz : dumpSize a d.frame.attrib t = sz) (hsmall : sz < 4096) (hpull : pulled hal sz = false) :
    let r := dumpFragment hal a buf t d
    Ahead r.1 (rnd4 (start + sz) + 56) ∧ r.1.frame.bufAddr < r.1.memAddr ∧
      r.1.frame.attrib = d.frame.attrib ∧
      r.2.span = ⟨d.frame.bufAddr + (48 + d.frame.pktOffset * 8),
        sz + 56 - (48 + d.frame.pktOffset * 8)⟩ := by
  obtain ⟨hqsel, hmem, hoffset⟩ := h
  have hdesc : txdescSize = 48 := rfl
  have hroom : packetOffsetSz = 8 := rfl
  have hframe := pktOffset_updateTxdesc hal d.frame d.mem d.memAddr sz false
  have hpull' : ¬(updateTxdesc hal d.frame d.mem d.memAddr sz false).pull = true := by
    rw [pull_updateTxdesc, hpull]
    exact Bool.false_ne_true
  rw [if_neg hpull'] at hframe
  have hnext : nextMemAddr d.memAddr ((sz + txdescSize + packetOffsetSz) % 2 ^ 32) =
      rnd4 (start + sz) := by
    rw [nextMemAddr_eq (by omega)]
    exact congrArg rnd4 (by omega)
  rw [dumpFragment]
  simp only [hsz, if_neg hqsel, if_neg hpull', hframe, hnext]
  refine ⟨⟨hqsel, rfl, hoffset⟩, ?_, trivial, ?_⟩
  · have hle := le_rnd4 (start + sz)
    omega
  · simp only [Submission.span, Submission.header, Fragment.mk.injEq, hdesc, hroom,
      true_and]
    omega

theorem dumpLoop_further_iff (h : Ahead d start) (hbuf : d.frame.bufAddr < d.memAddr)
    {sizes : List ℕ}
    (hsizes : (List.range' t n).map (dumpSize a d.frame.attrib) = sizes)
    (hsmall : ∀ sz ∈ sizes, sz < 4096) :
    (dumpLoop hal a buf n t d).map Submission.span = place 56 start sizes ↔
      ∀ sz ∈ sizes, pulled hal sz = true := by
  induction n generalizing t d start sizes with
  | zero =>
    subst hsizes
    exact iff_of_true rfl (by simp)
  | succ n ih =>
    subst hsizes
    rw [List.range'_succ, List.map_cons] at hsmall ⊢
    rw [List.forall_mem_cons] at hsmall ⊢
    rw [dumpLoop, List.map_cons, place, List.cons.injEq]
    cases hpull : pulled hal (dumpSize a d.frame.attrib t) with
    | true =>
      obtain ⟨hahead, hbuf', hattrib, hspan⟩ :=
        dumpFragment_pulled buf h rfl hsmall.1 hpull
      rw [and_iff_right hspan, and_iff_right rfl]
      exact ih hahead hbuf' (by rw [hattrib]) hsmall.2
    | false =>
      obtain ⟨-, -, -, hspan⟩ :=
        dumpFragment_still buf h hbuf.le rfl hsmall.1 hpull
      obtain ⟨-, hmem, hoffset⟩ := h
      refine iff_of_false ?_ (fun hall => Bool.false_ne_true hall.1)
      rintro ⟨hhead, -⟩
      -- the address is in front of the fragment
      rw [hspan, Fragment.mk.injEq] at hhead
      omega

theorem dumpSize_inner {p : PktAttrib} (hcut : Cuttable a p) (ht : t + 1 ≠ p.nrFrags) :
    dumpSize a p t = a.fragLen - 4 - if a.securitypriv.swEncrypt then 0 else p.icvLen := by
  obtain ⟨-, -, -, hicv, hlo, hhi⟩ := hcut
  rw [dumpSize, if_neg ht]
  split_ifs <;> omega

theorem dumpSize_eq_iff {p : PktAttrib} (hcut : Cuttable a p) (ht : t + 1 ≠ p.nrFrags) :
    dumpSize a p t = a.fragLen - 4 ↔ a.securitypriv.swEncrypt = true ∨ p.icvLen = 0 := by
  rw [dumpSize_inner hcut ht]
  obtain ⟨-, -, -, hicv, hlo, -⟩ := hcut
  by_cases hsw : a.securitypriv.swEncrypt = true
  · rw [if_pos hsw]
    exact iff_of_true rfl (.inl hsw)
  · rw [if_neg hsw, or_iff_right hsw]
    omega

theorem dumpSizes_further {p : PktAttrib} (hcut : Cuttable a p)
    (htag : a.securitypriv.swEncrypt = true ∨ p.icvLen = 0)
    (hnr : p.nrFrags = (furtherSizes a p n).length + 1)
    (hlast : (furtherSizes a p n).getLast? = some p.lastTxcmdsz) :
    (List.range' 1 (furtherSizes a p n).length).map (dumpSize a p) = furtherSizes a p n := by
  unfold furtherSizes at *
  set q := (n - 1) / mpduLen a p false
  rw [List.length_append, List.length_replicate, List.length_singleton] at *
  rw [List.getLast?_concat, Option.some.injEq] at hlast
  rw [List.range'_concat, List.map_append, List.map_singleton, hlast]
  congr 1
  · refine List.eq_replicate_iff.mpr ⟨by simp, fun sz hsz => ?_⟩
    obtain ⟨t, ht, rfl⟩ := List.mem_map.mp hsz
    have hlt := (List.mem_range'_1.mp ht).2
    exact (dumpSize_eq_iff hcut (by omega)).mpr htag
  · rw [dumpSize_last a (by omega)]

theorem furtherSizes_small {p : PktAttrib} (hcut : Cuttable a p) :
    ∀ sz ∈ furtherSizes a p n, sz < 4096 := by
  obtain ⟨hsum, hpos⟩ := hcut.mpduLen false
  obtain ⟨-, -, hhead, -, hlo, hhi⟩ := hcut
  have hmod := Nat.mod_lt (n - 1) hpos
  rw [if_neg Bool.false_ne_true, Nat.add_zero] at hsum
  intro sz hsz
  rcases List.mem_append.mp hsz with hsz | hsz
  · rw [List.eq_of_mem_replicate hsz]
    omega
  · rw [List.mem_singleton.mp hsz]
    omega

structure Fresh (f : XmitFrame) : Prop where
  qsel : f.attrib.qsel ≠ qselH2cCmd
  pktOffset : f.pktOffset = 1

theorem Fresh.ahead {f : XmitFrame} {m : Mem} (h : Fresh f) :
    Ahead ⟨m, f, f.bufAddr⟩ f.memStart := by
  refine ⟨h.qsel, ?_, h.pktOffset.le⟩
  rw [XmitFrame.memStart, hwHdrOffset, h.pktOffset]
  rfl

theorem dumpFragment_first (hal : TxHal) (buf : ℕ) (m : Mem) {f : XmitFrame} (h : Fresh f)
    (hsmall : dumpSize a f.attrib 0 < 4096) :
    let r := dumpFragment hal a buf 0 ⟨m, f, f.bufAddr⟩
    Ahead r.1 (rnd4 (f.memStart + dumpSize a f.attrib 0) + 56) ∧ r.1.frame.bufAddr < r.1.memAddr ∧
      r.1.frame.attrib = f.attrib ∧ r.2.span = ⟨f.memStart, dumpSize a f.attrib 0⟩ := by
  have hahead := h.ahead (m := m)
  cases hpull : pulled hal (dumpSize a f.attrib 0) with
  | true => exact dumpFragment_pulled buf hahead rfl hsmall hpull
  | false =>
    obtain ⟨hnext, hbuf, hattrib, hspan⟩ :=
      dumpFragment_still buf hahead le_rfl rfl hsmall hpull
    refine ⟨hnext, hbuf, hattrib, hspan.trans ?_⟩
    rw [Fragment.mk.injEq, h.pktOffset]
    have hmem := hahead.memAddr
    dsimp only at hmem ⊢
    omega

theorem dump_one {f : XmitFrame} {m : Mem} (h : Fresh f) (hnr : f.attrib.nrFrags = 1)
    (hsmall : f.attrib.lastTxcmdsz < 4096) :
    (rtwDumpXframe hal a buf m f).map Submission.span = [⟨f.memStart, f.attrib.lastTxcmdsz⟩] := by
  have hsize : dumpSize a f.attrib 0 = f.attrib.lastTxcmdsz := dumpSize_last a hnr.symm
  obtain ⟨-, -, -, hspan⟩ :=
    dumpFragment_first (a := a) hal buf m h (by rwa [hsize])
  rw [rtwDumpXframe, hnr, dumpLoop, dumpLoop, List.map_singleton, hspan, hsize]

theorem length_dumpLoop : (dumpLoop hal a buf n t d).length = n := by
  induction n generalizing t d with
  | zero => rfl
  | succ n ih => rw [dumpLoop, List.length_cons, ih]

theorem length_place (room start : ℕ) (sizes : List ℕ) :
    (place room start sizes).length = sizes.length := by
  induction sizes generalizing start with
  | nil => rfl
  | cons n ns ih => rw [place, List.length_cons, List.length_cons, ih]

/-- **A frame that is cut** is submitted as it was written exactly if the tag is not taken off, the
fragments are counted right, and the descriptors of the later ones are moved. -/
theorem dump_further_iff (hal : TxHal) (buf : ℕ) (m : Mem) {f : XmitFrame} (h : Fresh f)
    (hcut : Cuttable a f.attrib)
    (hnr : f.attrib.nrFrags = ((furtherSizes a f.attrib n).length + 1) % 256)
    (hlast : (furtherSizes a f.attrib n).getLast? = some f.attrib.lastTxcmdsz) :
    (rtwDumpXframe hal a buf m f).map Submission.span =
        place 56 f.memStart ((a.fragLen - 4) :: furtherSizes a f.attrib n) ↔
      (a.securitypriv.swEncrypt = true ∨ f.attrib.icvLen = 0) ∧
        (furtherSizes a f.attrib n).length + 1 < 256 ∧
          ∀ sz ∈ furtherSizes a f.attrib n, pulled hal sz = true := by
  by_cases hfew : (furtherSizes a f.attrib n).length + 1 < 256
  · rw [and_iff_right hfew]
    rw [Nat.mod_eq_of_lt hfew] at hnr
    have hpos : 0 < (furtherSizes a f.attrib n).length :=
      List.length_pos_iff.mpr furtherSizes_ne_nil
    have hinner : 0 + 1 ≠ f.attrib.nrFrags := by omega
    have hsmall : dumpSize a f.attrib 0 < 4096 := by
      rw [dumpSize_inner hcut hinner]
      have hhi := hcut.fragLen_le
      omega
    obtain ⟨hahead, hbuf, hattrib, hspan⟩ :=
      dumpFragment_first hal buf m h hsmall
    rw [rtwDumpXframe, hnr, dumpLoop, List.map_cons, place, List.cons.injEq, hspan,
      Fragment.mk.injEq, and_iff_right rfl, dumpSize_eq_iff hcut hinner]
    refine and_congr_right fun htag => ?_
    have hfirst := (dumpSize_eq_iff hcut hinner).mpr htag
    rw [hfirst] at hahead
    refine dumpLoop_further_iff hahead hbuf ?_ (furtherSizes_small hcut)
    rw [hattrib]
    exact dumpSizes_further hcut htag hnr hlast
  · refine iff_of_false ?_ (fun hall => hfew hall.2.1)
    intro hspans
    have hlen := congrArg List.length hspans
    rw [List.length_map, rtwDumpXframe, length_dumpLoop, length_place, List.length_cons,
      hnr] at hlen
    omega

end Submissions

/-! ## What is asked of the fragments -/

def coalesceCut (a : Adapter) (m : Mem) (f : XmitFrame) : Option Cut :=
  match rtwMakeWlanhdr a m f.memStart f.attrib with
  | (none, _) => none
  | (some (p, a), m) =>
    coalesceLoop a { f with attrib := p } (f.payload.length + 2) m f.memStart 0 f.payload []

/-- **The fragments hold the LLC header and the packet**, none is empty, and none is too long. -/
structure Written (a : Adapter) (f : XmitFrame) (cut : Cut) : Prop where
  holding : Holding f.attrib cut.mem (putSnap f.attrib.etherType ++ f.payload) cut.frags
  nonempty : ∀ g ∈ cut.frags, 0 < (payloadSpan f.attrib g).len
  short : ∀ g ∈ cut.frags, g.len ≤ a.fragLen

/-- **The fragments are found again** where they were written. -/
structure Found (hal : TxHal) (buf : ℕ) (r : Coalesced) (cut : Cut) : Prop where
  addmic : r.frame.attrib.encrypt = .tkip →
    micSpans r.adapter { r.frame.attrib with lastTxcmdsz := cut.lastTxcmdsz } cut.nrFrags
      r.frame.memStart = cut.frags.map (payloadSpan r.frame.attrib)
  swencrypt : (r.frame.attrib.bswenc && txCipher r.frame.attrib.encrypt) = true →
    encryptSpans r.adapter r.frame.attrib r.frame.attrib.nrFrags r.frame.memStart =
      r.frags.map (payloadSpan r.frame.attrib)
  dump : (rtwDumpXframe hal r.adapter buf r.mem r.frame).map Submission.span = r.frags

/-- A frame of `n` octets that is cut: the fragments after the first one are as far as the
descriptor walk can follow, and no other walk goes over them. -/
structure CutOk (hal : TxHal) (a : Adapter) (p : PktAttrib) (n : ℕ) : Prop where
  noMic : p.encrypt ≠ .tkip
  noCipher : (p.bswenc && txCipher p.encrypt) = false
  tag : a.securitypriv.swEncrypt = true ∨ p.icvLen = 0
  few : (furtherSizes a p n).length + 1 < 256
  pulled : ∀ sz ∈ furtherSizes a p n, pulled hal sz = true

/-- **The condition**: the packet fits into one fragment, or it is cut and every walk follows. -/
def LayoutOk (hal : TxHal) (a : Adapter) (p : PktAttrib) (n : ℕ) : Prop :=
  n ≤ mpduLen a p true ∨ CutOk hal a p (n - mpduLen a p true)

section Assembly

variable {c : TxCrypto} {hal : TxHal} {a : Adapter} {buf : ℕ} {m m' : Mem} {f : XmitFrame}
  {p : PktAttrib} {r : Coalesced} {cut : Cut}

theorem addmic_attrib (h : xmitframeAddmic c a m f = some (m', p)) :
    p = { f.attrib with
      lastTxcmdsz := f.attrib.lastTxcmdsz + if f.attrib.encrypt = .tkip then 8 else 0 } := by
  simp only [xmitframeAddmic] at h
  split_ifs at h with htkip
  · rw [if_pos htkip]
    exact (Prod.mk.inj (Option.some.inj h)).2.symm
  · rw [if_neg htkip]
    exact (Prod.mk.inj (Option.some.inj h)).2.symm

theorem Fresh.room (h : Fresh f) : hwHdrOffset f = 56 := by
  rw [hwHdrOffset, h.pktOffset]
  rfl

theorem Fresh.aligned (h : Fresh f) (halign : f.bufAddr % 4 = 0) : f.memStart % 4 = 0 := by
  rw [XmitFrame.memStart, h.room]
  omega

theorem mem_place {room start : ℕ} {sizes : List ℕ} {g : Fragment}
    (h : g ∈ place room start sizes) :
    g.len ∈ sizes := by
  induction sizes generalizing start with
  | nil => exact absurd h List.not_mem_nil
  | cons n ns ih =>
    rcases List.mem_cons.mp h with rfl | h
    · exact List.mem_cons_self
    · exact List.mem_cons_of_mem _ (ih h)

theorem mpduSizes_bounds (hcut : Cuttable a p) {n : ℕ} :
    ∀ sz ∈ mpduSizes a p n, mpduHead p < sz ∧ sz ≤ a.fragLen - 4 := by
  obtain ⟨hsum, -⟩ := hcut.mpduLen true
  obtain ⟨hsum', hpos'⟩ := hcut.mpduLen false
  obtain ⟨-, -, hhead, -, hlo, hhi⟩ := hcut
  rw [if_pos rfl] at hsum
  rw [if_neg Bool.false_ne_true, Nat.add_zero] at hsum'
  have hmod := Nat.mod_lt (n - mpduLen a p true - 1) hpos'
  intro sz hsz
  unfold mpduSizes furtherSizes at hsz
  split_ifs at hsz with hone
  · rw [List.mem_singleton.mp hsz]
    omega
  · rcases List.mem_cons.mp hsz with rfl | hsz
    · omega
    rcases List.mem_append.mp hsz with hsz | hsz
    · rw [List.eq_of_mem_replicate hsz]
      omega
    · rw [List.mem_singleton.mp hsz]
      omega

theorem Laid.written (hcut : Cuttable a f.attrib)
    (h : Laid f m f.memStart 0 (mpduSizes a f.attrib f.payload.length)
      (putSnap f.attrib.etherType ++ f.payload) [] cut) : Written a f cut := by
  have hfrags : cut.frags = place (hwHdrOffset f) f.memStart _ := h.frags
  have hbounds (g : Fragment) (hg : g ∈ cut.frags) :
      mpduHead f.attrib < g.len ∧ g.len ≤ a.fragLen - 4 :=
    mpduSizes_bounds hcut g.len (mem_place (hfrags ▸ hg))
  refine ⟨hfrags ▸ h.holding, fun g hg => ?_, fun g hg => ?_⟩
  · exact Nat.sub_pos_of_lt (hbounds g hg).1
  · exact (hbounds g hg).2.trans (Nat.sub_le _ _)

theorem LayoutOk.congr {a' : Adapter} (hfrag : a'.fragLen = a.fragLen)
    (hsec : a'.securitypriv = a.securitypriv) (p : PktAttrib) (seqnum : ℕ) (ampduEn : Bool)
    (n : ℕ) :
    LayoutOk hal a' { p with seqnum := seqnum, ampduEn := ampduEn } n ↔ LayoutOk hal a p n := by
  have hmpdu (first : Bool) : mpduLen a' { p with seqnum := seqnum, ampduEn := ampduEn } first =
      mpduLen a p first := by
    rw [mpduLen, mpduLen, hfrag]
    rfl
  have hsizes (n : ℕ) : furtherSizes a' { p with seqnum := seqnum, ampduEn := ampduEn } n =
      furtherSizes a p n := by
    rw [furtherSizes, furtherSizes, hmpdu, hfrag]
    rfl
  rw [LayoutOk, LayoutOk, hmpdu]
  refine or_congr_right ⟨fun h => ?_, fun h => ?_⟩
  · exact ⟨h.noMic, h.noCipher, hsec ▸ h.tag, hsizes _ ▸ h.few, hsizes _ ▸ h.pulled⟩
  · exact ⟨h.noMic, h.noCipher, hsec ▸ h.tag, hsizes _ ▸ h.few, hsizes _ ▸ h.pulled⟩

structure Finished (a : Adapter) (f : XmitFrame) (cut : Cut) (r : Coalesced) : Prop where
  adapter : r.adapter = a
  frame : r.frame = { f with
    attrib := { f.attrib with
      nrFrags := cut.nrFrags
      lastTxcmdsz := cut.lastTxcmdsz + if f.attrib.encrypt = .tkip then 8 else 0 } }
  frags : r.frags = growLast f.attrib cut.frags

theorem growLast_congr {p p' : PktAttrib} (h : p'.encrypt = p.encrypt) (gs : List Fragment) :
    growLast p' gs = growLast p gs := by
  induction gs with
  | nil => rfl
  | cons g gs ih =>
    cases gs with
    | nil => simp only [growLast, h]
    | cons g' gs => exact congrArg (g :: ·) ih

theorem growLast_of_ne {gs : List Fragment} (h : p.encrypt ≠ .tkip) : growLast p gs = gs := by
  induction gs with
  | nil => rfl
  | cons g gs ih =>
    cases gs with
    | nil => simp only [growLast, if_neg h]
    | cons g' gs => exact congrArg (g :: ·) ih

theorem coalesceFragments_finished (h : coalesceFragments c a m f = some r) (hres : r.res = true)
    (hloop : coalesceLoop a f (f.payload.length + 2) m f.memStart 0 f.payload [] = some cut) :
    Finished a f cut r := by
  unfold coalesceFragments at h
  dsimp only at h
  rw [← XmitFrame.payload, ← XmitFrame.memStart, hloop, Option.map_some, Option.some.injEq] at h
  split at h
  · subst h
    exact absurd hres Bool.false_ne_true
  · rename_i hmic
    subst h
    have hp := addmic_attrib hmic
    subst hp
    refine ⟨rfl, rfl, ?_⟩
    apply growLast_congr
    rfl

theorem found_one (hcut : Cuttable a f.attrib) (hfresh : Fresh f) (halign : f.bufAddr % 4 = 0)
    {sz : ℕ} (hlaid : Laid f m f.memStart 0 [sz] (putSnap f.attrib.etherType ++ f.payload) [] cut)
    (hsz : sz ≤ a.fragLen - 4) (hfin : Finished a f cut r) : Found hal buf r cut := by
  obtain ⟨rfl, hframe, hrfrags⟩ := hfin
  have hfrags : cut.frags = [⟨f.memStart, sz⟩] := hlaid.frags
  have hnr : cut.nrFrags = 1 := hlaid.nrFrags
  have hlast : sz = cut.lastTxcmdsz := Option.some.inj hlaid.last
  have hhi := hcut.fragLen_le
  have hstart : r.frame.memStart = f.memStart := by rw [hframe]; rfl
  have hgrown : r.frags = [⟨f.memStart, r.frame.attrib.lastTxcmdsz⟩] := by
    rw [hrfrags, hfrags, growLast, hframe, hlast]
    dsimp only
    split_ifs <;> rfl
  refine ⟨fun _ => ?_, fun hsw => ?_, ?_⟩
  · rw [hnr, hfrags, hlast, hstart, micSpans_one (hfresh.aligned halign)]
    rfl
  · have hone : r.frame.attrib.nrFrags = 1 := by rw [hframe]; exact hnr
    rw [hone, hgrown, hstart, encryptSpans_one (Bool.and_eq_true _ _ ▸ hsw).1]
    rfl
  · rw [hgrown, ← hstart]
    refine dump_one ⟨?_, ?_⟩ ?_ ?_
    · rw [hframe]
      exact hfresh.qsel
    · rw [hframe]
      exact hfresh.pktOffset
    · rw [hframe]
      exact hnr
    · rw [hframe]
      dsimp only
      split_ifs <;> omega

theorem found_further_iff (hcut : Cuttable a f.attrib) (hfresh : Fresh f) {n : ℕ}
    (hlaid : Laid f m f.memStart 0 ((a.fragLen - 4) :: furtherSizes a f.attrib n)
      (putSnap f.attrib.etherType ++ f.payload) [] cut) (hfin : Finished a f cut r) :
    Found hal buf r cut ↔ CutOk hal a f.attrib n := by
  obtain ⟨rfl, hframe, hrfrags⟩ := hfin
  have hfrags : cut.frags = place 56 f.memStart _ := hfresh.room ▸ hlaid.frags
  have hnr : cut.nrFrags = ((furtherSizes r.adapter f.attrib n).length + 1) % 256 := by
    rw [hlaid.nrFrags, Nat.zero_add, List.length_cons]
  have hlast : (furtherSizes r.adapter f.attrib n).getLast? = some cut.lastTxcmdsz := by
    have hlast := hlaid.last
    obtain ⟨size, sizes, hsizes⟩ := List.exists_cons_of_ne_nil (furtherSizes_ne_nil (a := r.adapter)
      (p := f.attrib) (n := n))
    rwa [hsizes, List.getLast?_cons_cons, ← hsizes] at hlast
  -- the attributes are those of the frame, up to the count and the size of the last fragment
  have hcut' : Cuttable r.adapter r.frame.attrib := by
    rw [hframe]
    exact ⟨hcut.ra, hcut.hdrlen, hcut.head, hcut.icvLen, hcut.fragLen, hcut.fragLen_le⟩
  have hfresh' : Fresh r.frame := by
    rw [hframe]
    exact ⟨hfresh.qsel, hfresh.pktOffset⟩
  have hstart : r.frame.memStart = f.memStart := by rw [hframe]; rfl
  have hencrypt : r.frame.attrib.encrypt = f.attrib.encrypt := by rw [hframe]
  have hbswenc : r.frame.attrib.bswenc = f.attrib.bswenc := by rw [hframe]
  by_cases htkip : f.attrib.encrypt = .tkip
  · refine iff_of_false (fun hfound => ?_) fun hok => hok.noMic htkip
    have hmic := hfound.addmic (hencrypt.trans htkip)
    rw [hfrags, hstart] at hmic
    exact micSpans_ne (p := { r.frame.attrib with lastTxcmdsz := cut.lastTxcmdsz })
      ⟨hcut'.ra, hcut'.hdrlen, hcut'.head, hcut'.icvLen, hcut'.fragLen, hcut'.fragLen_le⟩
      furtherSizes_ne_nil hmic
  rw [growLast_of_ne htkip, hfrags] at hrfrags
  by_cases hsw : (f.attrib.bswenc && txCipher f.attrib.encrypt) = true
  · refine iff_of_false (fun hfound => ?_) fun hok => Bool.false_ne_true (hok.noCipher ▸ hsw)
    have hspans := hfound.swencrypt (by rw [hbswenc, hencrypt]; exact hsw)
    rw [hrfrags, hstart] at hspans
    refine encryptSpans_ne hcut' ?_ furtherSizes_ne_nil hspans
    rw [hbswenc]
    exact (Bool.and_eq_true _ _ ▸ hsw).1
  have hsizes : furtherSizes r.adapter r.frame.attrib n = furtherSizes r.adapter f.attrib n := by
    rw [hframe]
    rfl
  have hdump := dump_further_iff hal buf r.mem (n := n) hfresh' hcut'
    (by rw [hsizes, hframe]; exact hnr)
    (by rw [hsizes, hframe, if_neg htkip]; exact hlast)
  rw [hsizes, hstart, ← hrfrags] at hdump
  have hicv : r.frame.attrib.icvLen = f.attrib.icvLen := by rw [hframe]
  rw [hicv] at hdump
  constructor
  · intro hfound
    obtain ⟨htag, hfew, hpulled⟩ := hdump.mp hfound.dump
    exact ⟨htkip, Bool.eq_false_of_not_eq_true hsw, htag, hfew, hpulled⟩
  · rintro ⟨-, -, htag, hfew, hpulled⟩
    refine ⟨fun h => absurd (hencrypt ▸ h) htkip, fun h => absurd ?_ hsw,
      hdump.mpr ⟨htag, hfew, hpulled⟩⟩
    rwa [hbswenc, hencrypt] at h

theorem coalesceFragments_found_iff (hal : TxHal) (buf : ℕ) (hcut : Cuttable a f.attrib)
    (hfresh : Fresh f) (halign : f.bufAddr % 4 = 0) (h : coalesceFragments c a m f = some r)
    (hres : r.res = true) :
    ∃ cut, coalesceLoop a f (f.payload.length + 2) m f.memStart 0 f.payload [] = some cut ∧
      Written a f cut ∧ (Found hal buf r cut ↔ LayoutOk hal a f.attrib f.payload.length) := by
  obtain ⟨cut, hloop, hlaid⟩ := coalesceLoop_laid (m := m) hcut
  refine ⟨cut, hloop, hlaid.written hcut, ?_⟩
  have hfin := coalesceFragments_finished h hres hloop
  by_cases hone : f.payload.length ≤ mpduLen a f.attrib true
  · have hbound := mpduSizes_bounds hcut (n := f.payload.length)
    rw [mpduSizes, if_pos hone] at hlaid hbound
    exact iff_of_true (found_one hcut hfresh halign hlaid
      (hbound _ (List.mem_singleton_self _)).2 hfin) (.inl hone)
  · rw [mpduSizes, if_neg hone] at hlaid
    rw [LayoutOk, or_iff_right hone]
    exact found_further_iff hcut hfresh hlaid hfin

end Assembly

/-- **What becomes of a frame that is built**: its fragments hold the packet, and are found again
exactly on the condition. -/
theorem coalesceCut_found (c : TxCrypto) (hal : TxHal) (a : Adapter) (buf : ℕ) (m : Mem)
    (f : XmitFrame) (hready : Ready f.attrib f.pkt) (hra : f.attrib.ra.isMcast = false)
    (hlo : 256 ≤ a.fragLen) (hhi : a.fragLen ≤ 2346) (hfresh : Fresh f)
    (halign : f.bufAddr % 4 = 0) (r : Coalesced) (h : rtwXmitframeCoalesce c a m f = some r)
    (hres : r.res = true) :
    ∃ cut, coalesceCut a m f = some cut ∧ Written a f cut ∧
      (Found hal buf r cut ↔ LayoutOk hal a f.attrib f.payload.length) := by
  unfold rtwXmitframeCoalesce at h
  unfold coalesceCut
  rw [← XmitFrame.memStart] at h
  rcases hmake : rtwMakeWlanhdr a m f.memStart f.attrib with ⟨_ | ⟨p, a'⟩, m'⟩ <;> rw [hmake] at h
  · obtain rfl := Option.some.inj h
    exact absurd hres Bool.false_ne_true
  obtain ⟨hp, hkeys⟩ := rtwMakeWlanhdr_some (congrArg Prod.fst hmake)
  -- the number of a frame decides nothing about where its fragments are
  generalize hseq : p.seqnum = seqnum at hp
  generalize hampdu : p.ampduEn = ampduEn at hp
  subst hp
  have hfrag : a'.fragLen = a.fragLen := hkeys.fragLen
  have hcut := hready.cuttable (a := a') hra (hfrag ▸ hlo) (hfrag ▸ hhi)
  obtain ⟨cut, hloop, hwritten, hfound⟩ := coalesceFragments_found_iff hal buf
    (f := { f with attrib := { f.attrib with seqnum := seqnum, ampduEn := ampduEn } })
    ⟨hcut.ra, hcut.hdrlen, hcut.head, hcut.icvLen, hcut.fragLen, hcut.fragLen_le⟩
    ⟨hfresh.qsel, hfresh.pktOffset⟩ halign h hres
  rw [← LayoutOk.congr hfrag hkeys.securitypriv f.attrib seqnum ampduEn]
  exact ⟨cut, hloop,
    ⟨⟨hwritten.holding.data, hwritten.holding.more⟩, hwritten.nonempty, hfrag ▸ hwritten.short⟩,
    hfound⟩

/-- **Fragments are written once, and found again** exactly if the frame is not cut, or no code and
no cipher goes over its fragments and the submission can follow. -/
theorem layout_found_iff (c : TxCrypto) (hal : TxHal) (a : Adapter) (buf : ℕ) (m : Mem)
    (f : XmitFrame) (hready : Ready f.attrib f.pkt) (hra : f.attrib.ra.isMcast = false)
    (hlo : 256 ≤ a.fragLen) (hhi : a.fragLen ≤ 2346) (hfresh : Fresh f)
    (halign : f.bufAddr % 4 = 0) (r : Coalesced) (h : rtwXmitframeCoalesce c a m f = some r)
    (hres : r.res = true) :
    (∃ cut, coalesceCut a m f = some cut ∧ Written a f cut ∧ Found hal buf r cut) ↔
      LayoutOk hal a f.attrib f.payload.length := by
  obtain ⟨cut, hcut, hwritten, hfound⟩ :=
    coalesceCut_found c hal a buf m f hready hra hlo hhi hfresh halign r h hres
  refine Iff.trans ⟨?_, fun hall => ⟨cut, hcut, hwritten, hall⟩⟩ hfound
  rintro ⟨cut', hcut', -, hall⟩
  obtain rfl := Option.some.inj (hcut.symm.trans hcut')
  exact hall

/-- A frame of `n` octets under CCMP, for the hardware to encrypt. -/
def ccmpFrame (n : ℕ) : XmitFrame where
  attrib :=
    { subtype := wifiDataType
      etherType := 0x0800
      pktHdrlen := ethHlen
      hdrlen := wlanHdrA3Len
      pktlen := n
      encrypt := .aes
      ivLen := 8
      icvLen := 8
      ra := apAddr
      psta := some apAddr }
  pkt := apAddr.toBytes ++ apAddr.toBytes ++ [8, 0] ++ List.replicate n 0

theorem ccmpFrame_ready (n : ℕ) : Ready (ccmpFrame n).attrib (ccmpFrame n).pkt where
  pktHdrlen := rfl
  pktlen := by simp [ccmpFrame, MacAddr.toBytes, ethHlen]
  hdrlen := .inl rfl
  ivLen := rfl
  icvLen := rfl

/-- A hundred octets are one fragment. -/
theorem layout_found_iff_whole :
    ∃ r cut, rtwXmitframeCoalesce nullCrypto (ccmpAdapter 256) (fun _ => 0) (ccmpFrame 100) =
    some r ∧
      coalesceCut (ccmpAdapter 256) (fun _ => 0) (ccmpFrame 100) = some cut ∧
        Written (ccmpAdapter 256) (ccmpFrame 100) cut ∧ Found {} 0 r cut := by
  have hbuilt : (rtwXmitframeCoalesce nullCrypto (ccmpAdapter 256) (fun _ => 0)
      (ccmpFrame 100)).any (·.res) = true := by
    decide +kernel
  obtain ⟨r, hr, hres⟩ := (Option.any_eq_true _ _).mp hbuilt
  have hfit : LayoutOk {} (ccmpAdapter 256) (ccmpFrame 100).attrib
      (ccmpFrame 100).payload.length := .inl (by decide)
  obtain ⟨cut, hcut, hwritten, hfound⟩ := (layout_found_iff nullCrypto {} (ccmpAdapter 256) 0
    (fun _ => 0) (ccmpFrame 100) (ccmpFrame_ready 100) (by decide) (by decide) (by decide)
    ⟨by decide, rfl⟩ rfl r hr hres).mpr hfit
  exact ⟨r, cut, hr, hcut, hwritten, hfound⟩

/-- **A packet of 300 octets that is cut in two**: the first transfer is eight octets short. -/
theorem not_layout_found :
    ¬∀ (c : TxCrypto) (hal : TxHal) (a : Adapter) (buf : ℕ) (m : Mem) (f : XmitFrame),
      Ready f.attrib f.pkt → f.attrib.ra.isMcast = false → 256 ≤ a.fragLen → a.fragLen ≤ 2346 →
      Fresh f → f.bufAddr % 4 = 0 →
      ∀ r, rtwXmitframeCoalesce c a m f = some r → r.res = true →
        ∃ cut, coalesceCut a m f = some cut ∧ Written a f cut ∧ Found hal buf r cut := by
  intro hclaim
  have hbuilt : (rtwXmitframeCoalesce nullCrypto (ccmpAdapter 256) (fun _ => 0)
      (ccmpFrame 300)).any (·.res) = true := by
    decide +kernel
  obtain ⟨r, hr, hres⟩ := (Option.any_eq_true _ _).mp hbuilt
  have hready := ccmpFrame_ready 300
  have hfresh : Fresh (ccmpFrame 300) := ⟨by decide, rfl⟩
  obtain ⟨cut, hcut, -, hfound⟩ := hclaim nullCrypto {} (ccmpAdapter 256) 0 (fun _ => 0)
    (ccmpFrame 300) hready (by decide) (by decide) (by decide) hfresh rfl r hr hres
  obtain ⟨cut', hcut', -, hiff⟩ := coalesceCut_found nullCrypto {} (ccmpAdapter 256) 0
    (fun _ => 0) (ccmpFrame 300) hready (by decide) (by decide) (by decide) hfresh rfl r hr hres
  obtain rfl := Option.some.inj (hcut.symm.trans hcut')
  -- the tag is taken off, though no room was left for it
  rcases hiff.mp hfound with hone | hok
  · rw [hready.length_payload] at hone
    exact absurd hone (by decide)
  · exact absurd hok.tag (by decide)

end Rtl88x2eu.Xmit
