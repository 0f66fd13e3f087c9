import Rtl88x2eu.Coop.Submit

/-!
# The ring of the duplicate cache

`coop_nonqos_check_and_record` with its slots, its mask of valid slots and its cursor. A key that is
found leaves the ring as it is; any other key goes into the slot at the cursor, over the oldest one.
So the ring holds the last keys that were not found, as many as it has slots.

The cache of a submit has the slots that are valid, in the same places.

## Main definitions

* `SeqRing`, `SeqRing.checkAndRecord`: the ring and the call
* `RingLog`, `Represents`

## Main results

* `ringLog_represents`: it does after every run of calls, and the calls answer by these keys
* `checkAndRecord_toCache`: the cache of a submit behaves as the ring
-/

namespace Rtl88x2eu.Coop

/-! ## The ring -/

/-- What a frame is looked up by. -/
@[ext]
structure SeqKey where
  seq : UInt16
  ta : MacAddr
deriving DecidableEq, Repr

/-- `struct coop_nonqos_seq_cache`, with an entry for every number. -/
structure SeqRing where
  entries : ℕ → SeqKey
  valid : BitVec coopNonqosSeqCacheSz
  idx : ℕ

def SeqRing.zero : SeqRing := ⟨fun _ => ⟨0, .zero⟩, 0, 0⟩

def SeqRing.found (c : SeqRing) (k : SeqKey) : Bool :=
  (List.range coopNonqosSeqCacheSz).any fun i => c.valid.getLsbD i && c.entries i = k

def SeqRing.record (c : SeqRing) (k : SeqKey) : SeqRing where
  entries := Function.update c.entries c.idx k
  valid := c.valid ||| BitVec.twoPow coopNonqosSeqCacheSz c.idx
  idx := (c.idx + 1) % coopNonqosSeqCacheSz

def SeqRing.checkAndRecord (c : SeqRing) (k : SeqKey) : Bool × SeqRing :=
  if c.found k then (true, c) else (false, c.record k)

/-- The ring, the keys for which a call returned `false`, the last one first, and the slots that
these calls wrote. -/
structure RingLog where
  cache : SeqRing := .zero
  missed : List SeqKey := []
  slots : List ℕ := []

def RingLog.call (s : RingLog) (k : SeqKey) : RingLog :=
  let r := s.cache.checkAndRecord k
  if r.1 then { s with cache := r.2 }
  else { cache := r.2, missed := k :: s.missed, slots := s.cache.idx :: s.slots }

/-- The ring holds the last of the keys that were recorded: the `j`-th one from the last stands `j`
slots before the slot behind the cursor. -/
structure Represents (c : SeqRing) (missed : List SeqKey) : Prop where
  idx : c.idx = missed.length % coopNonqosSeqCacheSz
  valid : ∀ i < coopNonqosSeqCacheSz, c.valid.getLsbD i = decide (i < missed.length)
  entry : ∀ j < coopNonqosSeqCacheSz, ∀ hj : j < missed.length,
    c.entries ((missed.length - 1 - j) % coopNonqosSeqCacheSz) = missed[j]

theorem slot_of_slot {n i : ℕ} (hi : i < coopNonqosSeqCacheSz) (hn : i < n) :
    (n - 1 - (n - 1 - i) % coopNonqosSeqCacheSz) % coopNonqosSeqCacheSz = i := by
  unfold coopNonqosSeqCacheSz at *
  omega

theorem slot_ne {n j : ℕ} (hj : j + 1 < coopNonqosSeqCacheSz) (hn : j < n) :
    (n - 1 - j) % coopNonqosSeqCacheSz ≠ n % coopNonqosSeqCacheSz := by
  unfold coopNonqosSeqCacheSz at *
  omega

theorem slot_used_iff {n i : ℕ} (hi : i < coopNonqosSeqCacheSz) :
    (i < n ∨ n % coopNonqosSeqCacheSz = i) ↔ i < n + 1 := by
  unfold coopNonqosSeqCacheSz at *
  omega

/-! ## The calls -/

variable {c : SeqRing} {missed : List SeqKey} {k : SeqKey}

theorem represents_zero : Represents .zero [] := by
  refine ⟨rfl, fun i _ => ?_, fun j _ hj => absurd hj (Nat.not_lt_zero j)⟩
  simp [SeqRing.zero]

theorem found_iff : c.found k ↔
    ∃ i < coopNonqosSeqCacheSz, c.valid.getLsbD i = true ∧ c.entries i = k := by
  simp [SeqRing.found]

/-- **A key is found if it is among the last ones.** -/
theorem Represents.found_iff (h : Represents c missed) :
    c.found k ↔ k ∈ missed.take coopNonqosSeqCacheSz := by
  rw [Coop.found_iff, List.mem_take_iff_getElem]
  constructor
  · rintro ⟨i, hi, hvalid, rfl⟩
    rw [h.valid i hi, decide_eq_true_iff] at hvalid
    have hj : (missed.length - 1 - i) % coopNonqosSeqCacheSz < missed.length := by
      have := Nat.mod_le (missed.length - 1 - i) coopNonqosSeqCacheSz
      omega
    have hlt := Nat.mod_lt (missed.length - 1 - i) coopNonqosSeqCacheSz_pos
    refine ⟨_, lt_min hlt hj, ?_⟩
    rw [← h.entry _ hlt hj, slot_of_slot hi hvalid]
  · rintro ⟨j, hj, rfl⟩
    refine ⟨_, Nat.mod_lt (missed.length - 1 - j) coopNonqosSeqCacheSz_pos, ?_,
      h.entry j (by omega) (by omega)⟩
    rw [h.valid _ (Nat.mod_lt _ coopNonqosSeqCacheSz_pos), decide_eq_true_iff]
    have := Nat.mod_le (missed.length - 1 - j) coopNonqosSeqCacheSz
    omega

/-- **A key that is recorded is the last one.** -/
theorem Represents.record (h : Represents c missed) (k : SeqKey) :
    Represents (c.record k) (k :: missed) := by
  have hidx := h.idx
  have hlt := Nat.mod_lt missed.length coopNonqosSeqCacheSz_pos
  refine ⟨?_, fun i hi => ?_, fun j hj hlt' => ?_⟩
  · show (c.idx + 1) % coopNonqosSeqCacheSz = _
    rw [hidx, Nat.mod_add_mod, List.length_cons]
  · have hbit : (c.record k).valid.getLsbD i =
        (decide (i < missed.length) || decide (missed.length % coopNonqosSeqCacheSz = i)) := by
      rw [SeqRing.record, BitVec.getLsbD_or, BitVec.getLsbD_twoPow, h.valid i hi, hidx,
        decide_eq_true hlt, Bool.true_and]
    rw [hbit, ← Bool.decide_or, decide_eq_decide, List.length_cons]
    exact slot_used_iff hi
  · rw [List.length_cons] at hlt'
    rw [List.length_cons]
    cases j with
    | zero =>
      have hslot : (missed.length + 1 - 1 - 0) % coopNonqosSeqCacheSz = c.idx := by
        rw [hidx]
        rfl
      rw [hslot]
      exact Function.update_self _ _ _
    | succ j =>
      have hj' : j < missed.length := Nat.lt_of_succ_lt_succ hlt'
      have hsub : missed.length + 1 - 1 - (j + 1) = missed.length - 1 - j := by omega
      show Function.update c.entries c.idx k _ = missed[j]
      rw [hsub, Function.update_of_ne (hidx ▸ slot_ne hj hj'),
        h.entry j (Nat.lt_of_succ_lt hj) hj']

theorem checkAndRecord_of_found (h : c.found k) : c.checkAndRecord k = (true, c) :=
  if_pos h

theorem checkAndRecord_of_not_found (h : ¬c.found k) :
    c.checkAndRecord k = (false, c.record k) :=
  if_neg h

theorem checkAndRecord_fst : (c.checkAndRecord k).1 = c.found k := by
  by_cases h : c.found k
  · rw [checkAndRecord_of_found h, h]
  · rw [checkAndRecord_of_not_found h, eq_false_of_ne_true h]

theorem Represents.idx_lt (h : Represents c missed) : c.idx < coopNonqosSeqCacheSz :=
  h.idx ▸ Nat.mod_lt _ coopNonqosSeqCacheSz_pos

/-- The ring holds the last of the keys, and the slots that were written are the first ones. -/
structure RingLog.Ok (s : RingLog) : Prop where
  cache : Represents s.cache s.missed
  slots : ∀ i, i ∈ s.slots ↔ i < coopNonqosSeqCacheSz ∧ i < s.missed.length

theorem RingLog.Ok.call {s : RingLog} (h : s.Ok) (k : SeqKey) : (s.call k).Ok := by
  by_cases hf : s.cache.found k
  · have hcall : s.call k = s := by rw [RingLog.call, checkAndRecord_of_found hf]; rfl
    rwa [hcall]
  · have hcall : s.call k = ⟨s.cache.record k, k :: s.missed, s.cache.idx :: s.slots⟩ := by
      rw [RingLog.call, checkAndRecord_of_not_found hf]
      rfl
    rw [hcall]
    refine ⟨h.cache.record k, fun i => ?_⟩
    rw [List.mem_cons, h.slots, List.length_cons]
    constructor
    · rintro (rfl | ⟨hi, hn⟩)
      · exact ⟨h.cache.idx_lt, (slot_used_iff h.cache.idx_lt).1 (.inr h.cache.idx.symm)⟩
      · exact ⟨hi, Nat.lt_succ_of_lt hn⟩
    · rintro ⟨hi, hn⟩
      rcases (slot_used_iff hi).2 hn with hn | hn
      · exact .inr ⟨hi, hn⟩
      · exact .inl (h.cache.idx.trans hn).symm

def RingLog.run (keys : List SeqKey) : RingLog := keys.foldl RingLog.call {}

theorem RingLog.run_ok (keys : List SeqKey) : (RingLog.run keys).Ok := by
  have hrun : ∀ s : RingLog, s.Ok → (keys.foldl RingLog.call s).Ok := by
    induction keys with
    | nil => exact fun s hs => hs
    | cons k keys ih => exact fun s hs => ih _ (hs.call k)
  refine hrun {} ⟨represents_zero, fun i => ?_⟩
  simp

/-- **After every run of calls a call returns `true` exactly if its key is among the last ones that
were recorded, as many as the ring has slots; the slots that are valid are the ones that were
written, and the cursor stays below the size.** -/
theorem ringLog_represents (keys : List SeqKey) :
    (∀ k, ((RingLog.run keys).cache.checkAndRecord k).1 ↔
      k ∈ (RingLog.run keys).missed.take coopNonqosSeqCacheSz) ∧
    (∀ i, (RingLog.run keys).cache.valid.getLsbD i ↔ i ∈ (RingLog.run keys).slots) ∧
    (RingLog.run keys).cache.idx < coopNonqosSeqCacheSz := by
  have hok := RingLog.run_ok keys
  refine ⟨fun k => ?_, fun i => ?_, hok.cache.idx_lt⟩
  · rw [checkAndRecord_fst]
    exact hok.cache.found_iff
  · rw [hok.slots]
    by_cases hi : i < coopNonqosSeqCacheSz
    · rw [hok.cache.valid i hi, decide_eq_true_iff]
      exact (and_iff_right hi).symm
    · rw [BitVec.getLsbD_of_ge _ _ (Nat.le_of_not_lt hi)]
      exact iff_of_false Bool.false_ne_true fun h => hi h.1

def SeqRing.toCache (c : SeqRing) (hc : c.idx < coopNonqosSeqCacheSz) : NonqosSeqCache where
  entries i := if c.valid.getLsbD i then some ((c.entries i).seq.toNat, (c.entries i).ta) else none
  idx := ⟨c.idx, hc⟩

theorem checkAndRecord_idx_lt (hc : c.idx < coopNonqosSeqCacheSz) (k : SeqKey) :
    (c.checkAndRecord k).2.idx < coopNonqosSeqCacheSz := by
  by_cases h : c.found k
  · rwa [checkAndRecord_of_found h]
  · rw [checkAndRecord_of_not_found h]
    exact Nat.mod_lt _ coopNonqosSeqCacheSz_pos

theorem seqKey_eq_iff {a b : SeqKey} : a = b ↔ (a.seq.toNat, a.ta) = (b.seq.toNat, b.ta) := by
  rw [Prod.mk.injEq, UInt16.toNat_inj]
  exact SeqKey.ext_iff

theorem toCache_found (hc : c.idx < coopNonqosSeqCacheSz) :
    c.found k ↔ ∃ i, (c.toCache hc).entries i = some (k.seq.toNat, k.ta) := by
  rw [Coop.found_iff]
  constructor
  · rintro ⟨i, hi, hvalid, rfl⟩
    exact ⟨⟨i, hi⟩, if_pos hvalid⟩
  · rintro ⟨⟨i, hi⟩, hentry⟩
    by_cases hvalid : c.valid.getLsbD i
    · refine ⟨i, hi, hvalid, seqKey_eq_iff.2 ?_⟩
      exact Option.some.inj ((if_pos hvalid).symm.trans hentry)
    · exact absurd ((if_neg hvalid).symm.trans hentry) (Option.some_ne_none _).symm

theorem toCache_record (hc : c.idx < coopNonqosSeqCacheSz)
    (hc' : (c.record k).idx < coopNonqosSeqCacheSz) :
    (c.record k).toCache hc' =
      { entries := Function.update (c.toCache hc).entries (c.toCache hc).idx
          (some (k.seq.toNat, k.ta))
        idx := (c.toCache hc).idx + ⟨1, by decide⟩ } := by
  refine congrArg₂ NonqosSeqCache.mk (funext fun i => ?_) rfl
  show (if (c.valid ||| BitVec.twoPow coopNonqosSeqCacheSz c.idx).getLsbD i then _ else _) = _
  rw [BitVec.getLsbD_or, BitVec.getLsbD_twoPow, decide_eq_true hc, Bool.true_and]
  show (if _ then some ((Function.update c.entries c.idx k i).seq.toNat,
    (Function.update c.entries c.idx k i).ta) else none) =
      Function.update (c.toCache hc).entries ⟨c.idx, hc⟩ (some (k.seq.toNat, k.ta)) i
  by_cases hi : c.idx = (i : ℕ)
  · have hslot : i = ⟨c.idx, hc⟩ := Fin.ext hi.symm
    rw [decide_eq_true hi, Bool.or_true, if_pos rfl, hslot, Function.update_self,
      Function.update_self]
  · have hslot : i ≠ ⟨c.idx, hc⟩ := fun h => hi (Fin.val_eq_of_eq h).symm
    rw [decide_eq_false hi, Bool.or_false, Function.update_of_ne (Ne.symm hi),
      Function.update_of_ne hslot]
    rfl

/-- **The cache of a submit behaves as the ring.** -/
theorem checkAndRecord_toCache (hc : c.idx < coopNonqosSeqCacheSz) (k : SeqKey) :
    nonqosCheckAndRecord (c.toCache hc) k.seq.toNat k.ta =
      ((c.checkAndRecord k).1, (c.checkAndRecord k).2.toCache (checkAndRecord_idx_lt hc k)) := by
  by_cases h : c.found k
  · have hex := (toCache_found hc).1 h
    simp only [checkAndRecord_of_found h]
    exact if_pos hex
  · have hex := mt (toCache_found hc).2 h
    simp only [checkAndRecord_of_not_found h, toCache_record hc]
    exact if_neg hex

end Rtl88x2eu.Coop
