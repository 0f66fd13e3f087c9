import Rtl88x2eu.Efuse.CommandState

/-!
# Dumps of several adapters

The part of a dump that the driver waits for is a variable of the file, not of the adapter: all
adapters of the driver share it, and a dump that is given up leaves it behind. An adapter that gets
its segments while another one is in its second part stores them at the wrong place and takes the
end of its first part for the end of its dump. Only the second part is cut off at the end of the
efuse.

Beside the adapters the system keeps what each of them was sent: the bytes of both parts, in order.

## Main definitions

* `OwnDump`, `Holds`
* `Bus`, `Bus.step`: the adapters with the shared variable
* `Unmixed`

## Main results

* `storeSegment_eq`: a segment is one copy
* `Call.exec_of_sending`: calls are refused during a dump
* `unmixed_of_run`: the runs in which dumps do not mix
* `not_unmixed`: two adapters that mix
-/

namespace Rtl88x2eu.Efuse

open Failing Transition

def EfuseData.bytes (buf : EfuseData) : List UInt8 := (List.range buf.segmentSize).map buf.data

/-- What an adapter was sent in its dump. -/
structure OwnDump where
  part : Option C2hPart := some .part1
  next : ℕ := 0
  part1 : List UInt8 := []
  part2 : List UInt8 := []

namespace OwnDump

def receive (own : OwnDump) (buf : EfuseData) : OwnDump where
  part := fwNext own.part buf.endSegment
  next := if buf.endSegment then 0 else own.next + 1
  part1 := if own.part = some .part1 then own.part1 ++ buf.bytes else own.part1
  part2 := if own.part = some .part2 then own.part2 ++ buf.bytes else own.part2

def bytes (own : OwnDump) : C2hPart → List UInt8
  | .part1 => own.part1
  | .part2 => own.part2

end OwnDump

/-- The map holds the bytes of the first part from its beginning and those of the second part from
`EFUSE_PART_1_END`, up to the end of the efuse. -/
structure Holds (map : Map) (own : OwnDump) : Prop where
  part1 : ∀ n b, own.part1[n]? = some b → map n = b
  part2 : ∀ n b, own.part2[n]? = some b → efusePart1End + n < efuseSize →
    map (efusePart1End + n) = b

def segmentCopy (buf : EfuseData) (s : Adapter) : ℕ × ℕ :=
  let segOffset := buf.segmentId * s.efuseSegSize
  match s.efuseC2hPart with
  | .part1 => (segOffset, buf.segmentSize)
  | .part2 => (segOffset + efusePart1End,
      if segOffset + efusePart1End + buf.segmentSize ≤ efuseSize then buf.segmentSize
      else efuseSize - (segOffset + efusePart1End))

variable {s t : Adapter} {buf : EfuseData} {map : Map} {own : OwnDump}

/-- **A segment is one copy.** -/
theorem storeSegment_eq (buf : EfuseData) (s : Adapter) (n : ℕ) :
    storeSegment buf s n =
      if (segmentCopy buf s).1 ≤ n ∧ n < (segmentCopy buf s).1 + (segmentCopy buf s).2 then
        buf.data (n - (segmentCopy buf s).1)
      else s.efuseMap n := by
  unfold storeSegment segmentCopy
  cases s.efuseC2hPart with
  | part1 => rfl
  | part2 =>
    dsimp only
    refine if_congr ?_ rfl rfl
    split <;> omega

theorem efuseMap_finishDump : Frames Adapter.efuseMap finishDump := by
  unfold finishDump setProcStatus
  refine Frames.bind Frames.look fun fwRc => ?_
  split
  · refine Frames.bind (Frames.modify fun _ => rfl) fun _ => ?_
    refine Frames.bind (Frames.modify fun _ => rfl) fun _ => ?_
    exact frames_signals (fun _ _ _ => rfl) featureMap fun _ => frames_featureMap fun _ _ => rfl
  · refine Frames.bind (Frames.modify fun _ => rfl) fun _ => ?_
    exact frames_signals (fun _ _ _ => rfl) (fun _ => pure fun _ => fwRc) fun _ => Frames.pure

theorem getEfuseData_awaited (h : Awaited buf s) (hmalloc : s.answers 0 = true) :
    (exec (getEfuseData buf) s).2.efuseMap = storeSegment buf (sized buf s) ∧
      ((exec (getEfuseData buf) s).2.efuseState.procStatus = .sending ↔
        ¬(buf.endSegment = true ∧ s.efuseC2hPart = .part2)) := by
  obtain ⟨t, hcmd, hmap, hexec⟩ := exec_getEfuseData_awaited h hmalloc
  have hsending : t.efuseState.procStatus = .sending := by
    rw [show t.efuseState = s.efuseState from congrArg Prod.fst hcmd]
    exact h.2
  rw [hexec, ← hmap]
  split
  · next hend =>
    cases s.efuseC2hPart with
    | part1 => exact ⟨rfl, iff_of_true hsending fun h => C2hPart.noConfusion h.2⟩
    | part2 =>
      refine ⟨efuseMap_finishDump _, iff_of_false ?_ fun hnot => hnot ⟨hend, rfl⟩⟩
      obtain ⟨procStatus, hne, hfinish⟩ := finishDump_cmd { t with efuseC2hPart := .part1 }
      exact ne_of_eq_of_ne (congrArg (fun c => c.1.procStatus) hfinish) hne
  · next hend => exact ⟨rfl, iff_of_true hsending fun h => hend h.1⟩

theorem exec_checkReady_sending (h : s.efuseState.procStatus = .sending) :
    exec checkReady s = (.error .busyState, s) := by
  unfold checkReady
  rw [exec_bind, exec_look]
  dsimp only
  rw [exec_bind, exec_failIf, if_pos h]

def Idles {α : Type} (m : M α) (s : Adapter) : Prop := (exec m s).2 = s

theorem idles_failIf {α : Type} {c : Prop} [Decidable c] {e : RetStatus} {m : M α}
    (h : Idles m s) : Idles (failIf c e >>= fun _ => m) s := by
  unfold Idles
  rw [exec_bind, exec_failIf]
  by_cases hc : c
  · rw [if_pos hc]
  · rw [if_neg hc]
    exact h

theorem idles_exclusive {α : Type} {m : M α} (h : s.efuseState.procStatus = .sending) :
    Idles (exclusive m) s := by
  unfold Idles exclusive
  rw [exec_bind_of_error (exec_checkReady_sending h)]

theorem idles_dumpEfuse {feature : Feature} {cfg : ReadCfg}
    (h : s.efuseState.procStatus = .sending) : Idles (dumpEfuse feature cfg) s := by
  unfold Idles dumpEfuse
  rw [exec_bind, exec_look]
  dsimp only
  refine idles_failIf ?_
  unfold Idles
  rw [exec_bind_of_error (exec_checkReady_sending h)]

theorem idles_checkPgInfo {info : PgEfuseInfo} : Idles (checkPgInfo info) s :=
  frames_checkPgInfo (g := id) info s

/-- A program whose first half fails, or leaves the adapter alone for the second. -/
theorem Idles.bind {α β : Type} {m : M α} {f : α → M β} (hm : Idles m s)
    (hf : ∀ a, Returns m s a s → Idles (f a) s) : Idles (m >>= f) s := by
  unfold Idles at hm ⊢
  rw [exec_bind]
  rcases hexec : exec m s with ⟨e | a, t⟩
  · rw [hexec] at hm
    exact hm
  · rw [hexec] at hm
    obtain rfl : t = s := hm
    exact hf a hexec

/-- **Every call is refused during a dump.** -/
theorem Call.exec_of_sending (c : Call) (h : s.efuseState.procStatus = .sending) :
    c.exec s = s := by
  cases c with
  | dumpEfuseMap cfg => exact idles_dumpEfuse h
  | dumpLogEfuseMap cfg => exact idles_dumpEfuse h
  | dumpLogEfuseMask cfg => exact idles_dumpEfuse h
  | getEfuseAvailableSize =>
    exact (idles_dumpEfuse h).bind fun _ _ => rfl
  | dumpEfuseMapBt bank size => exact idles_failIf (idles_failIf (idles_exclusive h))
  | writeEfuseBt offset value bank => exact idles_exclusive h
  | readEfuseBt offset bank => exact idles_exclusive h
  | readLogicalEfuse offset => exact idles_failIf (idles_exclusive h)
  | writeLogEfuse offset value => exact idles_failIf (idles_exclusive h)
  | writeLogEfuseWord offset value => exact idles_failIf (idles_exclusive h)
  | pgEfuseByMap info => exact idles_checkPgInfo.bind fun _ _ => idles_exclusive h
  | writeWifiPhyEfuse offset value => exact idles_failIf (idles_exclusive h)
  | readWifiPhyEfuse offset size => exact idles_failIf (idles_exclusive h)

/-! ## Several adapters -/

variable {ι : Type} [DecidableEq ι]

structure Bus (ι : Type) where
  adapters : ι → Adapter
  /-- the variable of the file -/
  efuseC2hPart : C2hPart := .part1
  /-- what each adapter was sent since it was last at rest -/
  own : ι → OwnDump := fun _ => {}
  /-- the copies into the maps: the adapter, the offset and the number of bytes -/
  copies : List (ι × ℕ × ℕ) := []
  /-- the dumps that ended with `HALMAC_CMD_PROCESS_DONE`: the map, and what the adapter was sent -/
  dones : List (Map × OwnDump) := []

namespace Bus

def load (b : Bus ι) (i : ι) : Adapter := { b.adapters i with efuseC2hPart := b.efuseC2hPart }

def store (b : Bus ι) (i : ι) (t : Adapter) : Bus ι :=
  { b with adapters := Function.update b.adapters i t, efuseC2hPart := t.efuseC2hPart }

/-- What happens to an adapter: a call of the API, `reset_ofld_feature_88xx` from outside, a segment
or an acknowledgement of its firmware. -/
inductive Event (ι : Type) where
  | call (i : ι) (c : Call) (answers : ℕ → Bool)
  | reset (i : ι)
  | segment (i : ι) (buf : EfuseData) (answers : ℕ → Bool)
  | ack (i : ι) (h2cSeq fwRc : UInt8)

def step (b : Bus ι) : Event ι → Option (Bus ι)
  | .call i c answers =>
    let s := b.load i
    let t := c.exec { s with answers := answers }
    some { b.store i t with
      own := if s.efuseState.procStatus = .sending then b.own else Function.update b.own i {} }
  | .reset i => some (b.store i (exec resetOfldFeature (b.load i)).2)
  | .segment i buf answers =>
    let s := { b.load i with answers := answers }
    let t := (exec (getEfuseData buf) s).2
    if Awaited buf s then
      if (b.own i).part = none ∨ buf.segmentId ≠ (b.own i).next then none
      else
        let own := (b.own i).receive buf
        some { b.store i t with
          own := Function.update b.own i own
          copies := if answers 0 then b.copies ++ [(i, segmentCopy buf (sized buf s))] else b.copies
          dones :=
            if t.efuseState.procStatus = .done then b.dones ++ [(t.efuseMap, own)] else b.dones }
    else some (b.store i t)
  | .ack i h2cSeq fwRc => some (b.store i (exec (getH2cAckPhyEfuse h2cSeq fwRc) (b.load i)).2)

/-- Before the first call. -/
structure Started (b : Bus ι) : Prop where
  adapters : ∀ i, Efuse.Started (b.adapters i)
  efuseC2hPart : b.efuseC2hPart = .part1
  copies : b.copies = []
  dones : b.dones = []

end Bus

/-- **Dumps do not mix**: every copy stays inside the map, and a dump that is done has put all
segments of both parts, and no others, where they belong. -/
structure Unmixed (b : Bus ι) : Prop where
  inside : ∀ c ∈ b.copies, c.2.2 = 0 ∨ c.2.1 + c.2.2 ≤ efuseSize
  holds : ∀ d ∈ b.dones, d.2.part = none ∧ Holds d.1 d.2

def Bus.InPlace (b : Bus ι) (i : ι) (buf : EfuseData) (answers : ℕ → Bool) : Prop :=
  Awaited buf { b.load i with answers := answers } →
    buf.segmentSize = 0 ∧ buf.endSegment = false ∨
    (b.own i).part = some b.efuseC2hPart ∧ answers 0 = true ∧
      (0 < buf.segmentSize →
        buf.segmentId * (sized buf (b.load i)).efuseSegSize =
            ((b.own i).bytes b.efuseC2hPart).length ∧
          (b.efuseC2hPart = .part1 → (b.own i).part1.length + buf.segmentSize ≤ efuseSize) ∧
          (b.efuseC2hPart = .part2 → (b.own i).part1.length ≤ efusePart1End))

instance decidableInPlace (b : Bus ι) (i : ι) (buf : EfuseData) (answers : ℕ → Bool) :
    Decidable (b.InPlace i buf answers) :=
  inferInstanceAs (Decidable (_ → _ ∨ _))

def Bus.Ok (b : Bus ι) : Bus.Event ι → Prop
  | .segment i buf answers => b.InPlace i buf answers
  | _ => True

instance decidableOk (b : Bus ι) : ∀ e, Decidable (b.Ok e)
  | .segment i buf answers => decidableInPlace b i buf answers
  | .call .. => inferInstanceAs (Decidable True)
  | .reset .. => inferInstanceAs (Decidable True)
  | .ack .. => inferInstanceAs (Decidable True)

theorem bytes_getElem? {n : ℕ} {b : UInt8} :
    buf.bytes[n]? = some b ↔ n < buf.segmentSize ∧ buf.data n = b := by
  unfold EfuseData.bytes
  rw [List.getElem?_map, Option.map_eq_some_iff]
  constructor
  · rintro ⟨k, hk, rfl⟩
    obtain ⟨hlt, rfl⟩ := List.getElem?_eq_some_iff.mp hk
    rw [List.length_range] at hlt
    rw [List.getElem_range]
    exact ⟨hlt, rfl⟩
  · rintro ⟨hlt, rfl⟩
    exact ⟨n, List.getElem?_range hlt, rfl⟩

def OwnDump.Ordered (own : OwnDump) : Prop := own.part = some .part1 → own.part2 = []

theorem OwnDump.Ordered.receive (h : own.Ordered) : (own.receive buf).Ordered := by
  intro hpart
  have hbefore : own.part = some .part1 := by
    revert hpart
    unfold OwnDump.receive fwNext
    dsimp only
    split <;> simp_all
  show (if own.part = some .part2 then _ else own.part2) = []
  rw [if_neg (by rw [hbefore]; decide)]
  exact h hbefore

/-- Nothing is stored, and nothing was sent. -/
theorem Holds.receive_empty (h : Holds map own) (hsize : buf.segmentSize = 0) :
    Holds map (own.receive buf) := by
  have hbytes : buf.bytes = [] := by
    unfold EfuseData.bytes
    rw [hsize]
    rfl
  refine ⟨fun n b hb => h.part1 n b ?_, fun n b hb => h.part2 n b ?_⟩
  · simpa [OwnDump.receive, hbytes] using hb
  · simpa [OwnDump.receive, hbytes] using hb

theorem storeSegment_empty (hsize : buf.segmentSize = 0) : storeSegment buf s = s.efuseMap := by
  funext n
  rw [storeSegment_eq, if_neg]
  unfold segmentCopy
  rw [hsize]
  cases s.efuseC2hPart with
  | part1 => dsimp only; omega
  | part2 =>
    dsimp only
    split <;> omega

/-- **A segment that is copied behind the part so far** puts its bytes there. -/
theorem Holds.receive (h : Holds s.efuseMap own) (hordered : own.Ordered)
    (hpart : own.part = some s.efuseC2hPart)
    (hoffset : buf.segmentId * s.efuseSegSize = (own.bytes s.efuseC2hPart).length)
    (hbelow : s.efuseC2hPart = .part2 → own.part1.length ≤ efusePart1End) :
    Holds (storeSegment buf s) (own.receive buf) := by
  cases hc2h : s.efuseC2hPart with
  | part1 =>
    rw [hc2h] at hpart hoffset
    have hstore (n : ℕ) : storeSegment buf s n =
        if own.part1.length ≤ n ∧ n < own.part1.length + buf.segmentSize then
          buf.data (n - own.part1.length)
        else s.efuseMap n := by
      rw [storeSegment_eq, segmentCopy, hc2h]
      dsimp only
      rw [hoffset]
      rfl
    refine ⟨fun n b hb => ?_, fun n b hb => ?_⟩
    · simp only [OwnDump.receive, hpart, if_true] at hb
      rw [hstore]
      rcases Nat.lt_or_ge n own.part1.length with hlt | hge
      · rw [List.getElem?_append_left hlt] at hb
        rw [if_neg (by omega)]
        exact h.part1 n b hb
      · rw [List.getElem?_append_right hge] at hb
        obtain ⟨hlt, hdata⟩ := bytes_getElem?.mp hb
        rw [if_pos (by omega)]
        exact hdata
    · simp [OwnDump.receive, hpart, hordered hpart] at hb
  | part2 =>
    rw [hc2h] at hpart hoffset
    have hbelow := hbelow hc2h
    have hstore (n : ℕ) : storeSegment buf s n =
        if efusePart1End + own.part2.length ≤ n ∧
            n < efusePart1End + own.part2.length + buf.segmentSize ∧ n < efuseSize then
          buf.data (n - (efusePart1End + own.part2.length))
        else s.efuseMap n := by
      unfold storeSegment
      rw [hc2h, hoffset, Nat.add_comm efusePart1End]
      rfl
    refine ⟨fun n b hb => ?_, fun n b hb hn => ?_⟩
    · have hb : own.part1[n]? = some b := by
        simpa [OwnDump.receive, hpart] using hb
      obtain ⟨hlt, -⟩ := List.getElem?_eq_some_iff.mp hb
      rw [hstore, if_neg (by omega)]
      exact h.part1 n b hb
    · simp only [OwnDump.receive, hpart, if_true] at hb
      rw [hstore]
      rcases Nat.lt_or_ge n own.part2.length with hlt | hge
      · rw [List.getElem?_append_left hlt] at hb
        rw [if_neg (by omega)]
        exact h.part2 n b hb hn
      · rw [List.getElem?_append_right hge] at hb
        obtain ⟨hlt, hdata⟩ := bytes_getElem?.mp hb
        rw [if_pos (by omega), ← hdata]
        congr 1
        omega

theorem getEfuseData_empty (h : Awaited buf s) (hsize : buf.segmentSize = 0) :
    (exec (getEfuseData buf) s).2.efuseMap = s.efuseMap := by
  rcases hmalloc : s.answers 0 with _ | _
  · rw [exec_getEfuseData_noMemory h hmalloc]
    rfl
  · rw [(getEfuseData_awaited h hmalloc).1, storeSegment_empty hsize]
    rfl

theorem segmentCopy_inside (h : s.efuseC2hPart = .part1 →
      buf.segmentSize = 0 ∨ buf.segmentId * s.efuseSegSize + buf.segmentSize ≤ efuseSize) :
    (segmentCopy buf s).2 = 0 ∨ (segmentCopy buf s).1 + (segmentCopy buf s).2 ≤ efuseSize := by
  unfold segmentCopy
  cases hpart : s.efuseC2hPart with
  | part1 => exact h hpart
  | part2 =>
    dsimp only
    split <;> omega

/-! ## Runs -/

variable {b b' : Bus ι} {i : ι}

/-- During a dump the map holds what the adapter was sent so far. -/
structure Sound (b : Bus ι) : Prop where
  unmixed : Unmixed b
  sending : ∀ i, (b.adapters i).efuseState.procStatus = .sending →
    Holds (b.adapters i).efuseMap (b.own i) ∧ (b.own i).Ordered

theorem holds_nil (map : Map) : Holds map {} :=
  ⟨fun n b hb => by simp at hb, fun n b hb => by simp at hb⟩

theorem Sound.of_store {t : Adapter} {own : OwnDump} (h : Sound b)
    (hadapters : b'.adapters = Function.update b.adapters i t)
    (hown : b'.own = Function.update b.own i own)
    (hsending : t.efuseState.procStatus = .sending → Holds t.efuseMap own ∧ own.Ordered)
    (hunmixed : Unmixed b') : Sound b' := by
  refine ⟨hunmixed, fun j hj => ?_⟩
  rw [hadapters] at hj ⊢
  rw [hown]
  by_cases hji : j = i
  · subst hji
    rw [Function.update_self] at hj ⊢
    rw [Function.update_self]
    exact hsending hj
  · rw [Function.update_of_ne hji] at hj ⊢
    rw [Function.update_of_ne hji]
    exact h.sending j hj

/-- A function that leaves the map alone and starts no dump. -/
theorem Sound.store (h : Sound b) {t : Adapter}
    (hquiet : t.efuseState.procStatus = .sending →
      (b.adapters i).efuseState.procStatus = .sending ∧ t.efuseMap = (b.adapters i).efuseMap) :
    Sound (b.store i t) := by
  refine h.of_store rfl (Function.update_eq_self i b.own).symm (fun ht => ?_)
    ⟨h.unmixed.inside, h.unmixed.holds⟩
  obtain ⟨hbefore, hmap⟩ := hquiet ht
  rw [hmap]
  exact h.sending i hbefore

/-- An awaited segment that meets the condition. -/
theorem Sound.segment {answers : ℕ → Bool} (h : Sound b)
    (hawaited : Awaited buf { b.load i with answers := answers })
    (hok : b.InPlace i buf answers)
    (hstep : b.step (.segment i buf answers) = some b') : Sound b' := by
  set s : Adapter := { b.load i with answers := answers } with hs
  obtain ⟨hholds, hordered⟩ := h.sending i hawaited.2
  unfold Bus.step at hstep
  dsimp only at hstep
  rw [if_pos hawaited] at hstep
  split at hstep
  · cases hstep
  obtain rfl := Option.some.inj hstep
  obtain ⟨hafter, hdone, hinside⟩ :
      Holds (exec (getEfuseData buf) s).2.efuseMap ((b.own i).receive buf) ∧
        ((exec (getEfuseData buf) s).2.efuseState.procStatus = .done →
          ((b.own i).receive buf).part = none) ∧
        ((segmentCopy buf (sized buf s)).2 = 0 ∨
          (segmentCopy buf (sized buf s)).1 + (segmentCopy buf (sized buf s)).2 ≤ efuseSize) := by
    rcases hok hawaited with ⟨hsize, hend⟩ | ⟨hpart, hmalloc, hplace⟩
    · refine ⟨?_, fun hdone => ?_, segmentCopy_inside fun _ => .inl hsize⟩
      · rw [getEfuseData_empty hawaited hsize]
        exact hholds.receive_empty hsize
      · have hcmd : cmd (exec (getEfuseData buf) s).2 = cmd s := getEfuseData_cmd (.inl hend)
        have hstate : (exec (getEfuseData buf) s).2.efuseState = s.efuseState :=
          congrArg Prod.fst hcmd
        rw [hstate, hawaited.2] at hdone
        cases hdone
    · obtain ⟨hmap, hsending⟩ := getEfuseData_awaited hawaited hmalloc
      refine ⟨?_, fun hdone => ?_, segmentCopy_inside fun hfirst => ?_⟩
      · rw [hmap]
        rcases Nat.eq_zero_or_pos buf.segmentSize with hsize | hpos
        · rw [storeSegment_empty hsize]
          exact hholds.receive_empty hsize
        · obtain ⟨hoffset, -, hbelow⟩ := hplace hpos
          exact Holds.receive (s := sized buf s) hholds hordered hpart hoffset hbelow
      · rw [hdone] at hsending
        obtain ⟨hend, hsecond⟩ := not_not.mp (mt hsending.mpr (by decide))
        change fwNext (b.own i).part buf.endSegment = none
        rw [hpart, show b.efuseC2hPart = .part2 from hsecond, hend]
        rfl
      · rcases Nat.eq_zero_or_pos buf.segmentSize with hsize | hpos
        · exact .inl hsize
        · obtain ⟨hoffset, hfit, -⟩ := hplace hpos
          have hfirst : b.efuseC2hPart = .part1 := hfirst
          rw [hfirst] at hoffset
          have hplaced : buf.segmentId * (sized buf s).efuseSegSize = (b.own i).part1.length :=
            hoffset
          rw [hplaced]
          exact .inr (hfit hfirst)
  refine h.of_store rfl rfl (fun _ => ⟨hafter, hordered.receive⟩) ⟨?_, ?_⟩
  · intro c hc
    dsimp only at hc
    split at hc
    · rcases List.mem_append.mp hc with hold | hnew
      · exact h.unmixed.inside c hold
      · obtain rfl := List.mem_singleton.mp hnew
        exact hinside
    · exact h.unmixed.inside c hc
  · intro d hd
    dsimp only at hd
    split at hd
    · next hstatus =>
      rcases List.mem_append.mp hd with hold | hnew
      · exact h.unmixed.holds d hold
      · obtain rfl := List.mem_singleton.mp hnew
        exact ⟨hdone hstatus, hafter⟩
    · exact h.unmixed.holds d hd

theorem getH2cAckPhyEfuse_frame (h2cSeq fwRc : UInt8) (s : Adapter) :
    (exec (getH2cAckPhyEfuse h2cSeq fwRc) s).2.efuseState.procStatus = s.efuseState.procStatus ∧
      (exec (getH2cAckPhyEfuse h2cSeq fwRc) s).2.efuseMap = s.efuseMap := by
  unfold getH2cAckPhyEfuse onlyIf
  rw [exec_bind, exec_look]
  dsimp only
  split
  · exact ⟨rfl, rfl⟩
  · exact ⟨rfl, rfl⟩

/-- **A step that meets the condition keeps the dumps apart.** -/
theorem Sound.step {e : Bus.Event ι} (h : Sound b) (hok : b.Ok e) (hstep : b.step e = some b') :
    Sound b' := by
  cases e with
  | call i c answers =>
    obtain rfl := Option.some.inj hstep
    by_cases hsending : (b.load i).efuseState.procStatus = .sending
    · -- the call is refused
      have hrefused : c.exec { b.load i with answers := answers } =
          { b.load i with answers := answers } := c.exec_of_sending hsending
      rw [if_pos hsending, hrefused]
      exact h.store fun _ => ⟨hsending, rfl⟩
    · rw [if_neg hsending]
      exact h.of_store rfl rfl (fun _ => ⟨holds_nil _, fun _ => rfl⟩)
        ⟨h.unmixed.inside, h.unmixed.holds⟩
  | reset i =>
    obtain rfl := Option.some.inj hstep
    exact h.store fun hsending => CmdProcess.noConfusion hsending
  | segment i buf answers =>
    by_cases hawaited : Awaited buf { b.load i with answers := answers }
    · exact h.segment hawaited hok hstep
    · unfold Bus.step at hstep
      dsimp only at hstep
      rw [if_neg hawaited, exec_getEfuseData_ignored hawaited] at hstep
      obtain rfl := Option.some.inj hstep
      exact h.store fun hsending => ⟨hsending, rfl⟩
  | ack i h2cSeq fwRc =>
    obtain rfl := Option.some.inj hstep
    obtain ⟨hstatus, hmap⟩ := getH2cAckPhyEfuse_frame h2cSeq fwRc (b.load i)
    exact h.store fun hsending => ⟨hstatus.symm.trans hsending, hmap⟩

omit [DecidableEq ι] in
theorem Bus.Started.sound (h : b.Started) : Sound b := by
  refine ⟨⟨fun c hc => ?_, fun d hd => ?_⟩, fun i hi => ?_⟩
  · rw [h.copies] at hc
    cases hc
  · rw [h.dones] at hd
    cases hd
  · rw [(h.adapters i).procStatus] at hi
    cases hi

/-- **The dumps do not mix** in a run whose segments arrive at their own part and in their
place. -/
theorem unmixed_of_run {es : List (Bus.Event ι)} (hb : b.Started) (hok : Meets Bus.step Bus.Ok b es)
    (hrun : run Bus.step b es = some b') : Unmixed b' :=
  (run_invariant_of_meets (fun _ _ _ h hok hstep => h.step hok hstep) hb.sound hok hrun).unmixed

def twoAdapters : Bus Bool where
  adapters _ := freshAdapter

theorem started_twoAdapters : twoAdapters.Started :=
  ⟨fun _ => started_freshAdapter, rfl, rfl, rfl⟩

def oneByte (value : UInt8) : EfuseData where
  h2cSeq := 0
  segmentId := 0
  segmentSize := 1
  endSegment := true
  data := fun _ => value

def oneDump (i : Bool) : List (Bus.Event Bool) :=
  [.call i (.dumpEfuseMap .fw) fun _ => true, .segment i (oneByte 0x12) fun _ => true,
    .segment i (oneByte 0x34) fun _ => true]

/-- One dump after the other. -/
theorem unmixed_twoAdapters :
    ∃ b', run Bus.step twoAdapters (oneDump true ++ oneDump false) = some b' ∧ Unmixed b' := by
  have hok : Meets Bus.step Bus.Ok twoAdapters (oneDump true ++ oneDump false) := by
    decide +kernel
  exact ⟨_, rfl, unmixed_of_run started_twoAdapters hok rfl⟩

/-- The second adapter gets its first part when the first one has got its own: the driver stores it
as the second part, and takes its end for the end of the dump. -/
theorem not_unmixed : ¬∀ (b b' : Bus Bool) (es : List (Bus.Event Bool)),
    b.Started → run Bus.step b es = some b' → Unmixed b' := by
  intro h
  have hunmixed := h twoAdapters _ [.call true (.dumpEfuseMap .fw) fun _ => true,
    .call false (.dumpEfuseMap .fw) fun _ => true, .segment true (oneByte 0x12) fun _ => true,
    .segment false (oneByte 0x12) fun _ => true] started_twoAdapters rfl
  exact absurd (hunmixed.holds _ List.mem_cons_self).1 (by decide)

end Rtl88x2eu.Efuse
