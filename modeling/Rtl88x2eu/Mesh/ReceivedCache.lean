import Mathlib.Data.List.Induction
import Rtl88x2eu.Recv.Attrib

/-!
# The received cache of a mesh

`rtw_mrc_check` looks a frame up in the bucket of its sequence number and adds it if it is not
there. The same walk drops the entries that have expired and keeps the bucket short: the last entry
of a full bucket goes before it is compared.

The frames that were added are kept in a log, the last one first. A bucket holds the first entries
of its log.

## Main definitions

* `MrcEntry`, `Mrc`: an entry, and the buckets
* `mrcWalk`, `rtwMrcCheck`: the walk over a bucket, and the call
* `MrcLog`
* `Mrc.Holds`, `Mrc.AtLast`: the frame has an entry that has not expired, and it is the last one of
  a full bucket

## Main results

* `mrcLog_law`: when the calls answer by the cache, and what follows for frames that are accepted
  again
-/

namespace Rtl88x2eu.Mesh

/-! ## The cache -/

def rtwMrcBuckets : ℕ := 256

def rtwMrcQueueMaxLen : ℕ := 4

theorem rtwMrcQueueMaxLen_pos : 0 < rtwMrcQueueMaxLen := by decide

def rtwMrcTimeoutMs : ℕ := 3 * 1000

/-- What a frame is looked up by. -/
structure MrcKey where
  msa : MacAddr
  seq : UInt32
deriving DecidableEq

structure MrcEntry where
  expTime : ℕ
  seqnum : UInt32
  msa : MacAddr
deriving DecidableEq

def MrcEntry.key (p : MrcEntry) : MrcKey := ⟨p.msa, p.seqnum⟩

def mrcIdx (seq : UInt32) : ℕ := seq.toNat % rtwMrcBuckets

/-- `struct rtw_mrc`, with `mshstats.mrc_del_qlen`. -/
structure Mrc where
  bucket : ℕ → List MrcEntry := fun _ => []
  mrcDelQlen : ℕ := 0

def MrcEntry.fresh (now : ℕ) (p : MrcEntry) : Bool := now ≤ p.expTime

/-- The walk over a bucket with `entries` entries behind it: whether it ends at the frame, the
entries that stay, and how many were dropped before their time. -/
def mrcWalk (now : ℕ) (k : MrcKey) : ℕ → List MrcEntry → Bool × List MrcEntry × ℕ
  | _, [] => (false, [], 0)
  | entries, p :: ps =>
    if !p.fresh now || entries + 1 = rtwMrcQueueMaxLen then
      let r := mrcWalk now k entries ps
      (r.1, r.2.1, if p.fresh now then r.2.2 + 1 else r.2.2)
    else if p.key = k then (true, p :: ps, 0)
    else
      let r := mrcWalk now k (entries + 1) ps
      (r.1, p :: r.2.1, r.2.2)

/-- A call: the time, the frame, and whether `rtw_mcache_alloc` has an entry. -/
structure MrcCall where
  now : ℕ
  key : MrcKey
  alloc : Bool := true

section Systime

variable (msToSystime : ℕ → ℕ)

def MrcCall.entry (c : MrcCall) : MrcEntry where
  expTime := c.now + msToSystime rtwMrcTimeoutMs
  seqnum := c.key.seq
  msa := c.key.msa

/-- `rtw_mrc_check` of an interface that has the cache: the value it returns, and the cache. -/
def rtwMrcCheck (m : Mrc) (c : MrcCall) : ℤ × Mrc :=
  let idx := mrcIdx c.key.seq
  let r := mrcWalk c.now c.key 0 (m.bucket idx)
  let qlen := m.mrcDelQlen + r.2.2
  if r.1 then (-1, ⟨Function.update m.bucket idx r.2.1, qlen⟩)
  else if c.alloc then
    (0, ⟨Function.update m.bucket idx (c.entry msToSystime :: r.2.1), qlen⟩)
  else (0, ⟨Function.update m.bucket idx r.2.1, qlen⟩)

/-- The cache, and the entries that were added, the last one first. -/
structure MrcLog where
  mrc : Mrc := {}
  added : List MrcEntry := []

def MrcLog.call (s : MrcLog) (c : MrcCall) : MrcLog :=
  let r := rtwMrcCheck msToSystime s.mrc c
  { mrc := r.2
    added := if r.1 = 0 ∧ c.alloc then c.entry msToSystime :: s.added else s.added }

def MrcLog.run (calls : List MrcCall) : MrcLog := calls.foldl (MrcLog.call msToSystime) {}

end Systime

def Mrc.freshOf (m : Mrc) (c : MrcCall) : List MrcEntry :=
  (m.bucket (mrcIdx c.key.seq)).filter (MrcEntry.fresh c.now)

def Mrc.Holds (m : Mrc) (c : MrcCall) : Prop :=
  ∃ i, ∃ p ∈ m.bucket i, p.fresh c.now ∧ p.key = c.key

/-- The entry of the frame is the last one of a bucket that is full of entries that have not
expired. -/
def Mrc.AtLast (m : Mrc) (c : MrcCall) : Prop :=
  ∃ p, (m.freshOf c)[rtwMrcQueueMaxLen - 1]? = some p ∧ p.key = c.key

section Falling

variable {α : Type*} {p : α → Bool} {l : List α}

theorem filter_eq_nil_of_head {a : α} (hl : (a :: l).Pairwise fun a b => p b → p a)
    (ha : ¬p a) : (a :: l).filter p = [] := by
  rw [List.filter_eq_nil_iff]
  intro b hb hp
  rcases List.mem_cons.1 hb with rfl | hb
  · exact ha hp
  · exact ha (List.rel_of_pairwise_cons hl hb hp)

theorem take_filter_of_falling (hl : l.Pairwise fun a b => p b → p a) (n : ℕ) :
    (l.filter p).take n = (l.take n).filter p := by
  induction l generalizing n with
  | nil => simp
  | cons a l ih =>
    cases n with
    | zero => rfl
    | succ n =>
      by_cases ha : p a
      · rw [List.filter_cons_of_pos ha, List.take_succ_cons, List.take_succ_cons,
          List.filter_cons_of_pos ha, ih (List.Pairwise.of_cons hl)]
      · have hsub : (a :: l.take n).Pairwise fun a b => p b → p a :=
          hl.sublist ((List.take_sublist n l).cons_cons a)
        rw [filter_eq_nil_of_head hl ha, List.take_succ_cons, filter_eq_nil_of_head hsub ha,
          List.take_nil]

theorem filter_prefix_of_falling (hl : l.Pairwise fun a b => p b → p a) : l.filter p <+: l := by
  induction l with
  | nil => simp
  | cons a l ih =>
    by_cases ha : p a
    · rw [List.filter_cons_of_pos ha]
      exact List.cons_prefix_cons.2 ⟨rfl, ih (List.Pairwise.of_cons hl)⟩
    · rw [filter_eq_nil_of_head hl ha]
      exact List.nil_prefix

end Falling

section Walk

variable {now n : ℕ} {k : MrcKey} {l : List MrcEntry}

theorem mrcWalk_of_stale {p : MrcEntry} (hp : p.fresh now = false) :
    mrcWalk now k n (p :: l) = mrcWalk now k n l := by
  simp [mrcWalk, hp]

theorem mrcWalk_of_full {p : MrcEntry} (hp : p.fresh now = true) (hn : n + 1 = rtwMrcQueueMaxLen) :
    mrcWalk now k n (p :: l) =
      ((mrcWalk now k n l).1, (mrcWalk now k n l).2.1, (mrcWalk now k n l).2.2 + 1) := by
  simp [mrcWalk, hp, hn]

theorem mrcWalk_of_eq {p : MrcEntry} (hp : p.fresh now = true) (hn : n + 1 < rtwMrcQueueMaxLen)
    (hk : p.key = k) : mrcWalk now k n (p :: l) = (true, p :: l, 0) := by
  simp [mrcWalk, hp, hn.ne, hk]

theorem mrcWalk_of_ne {p : MrcEntry} (hp : p.fresh now = true) (hn : n + 1 < rtwMrcQueueMaxLen)
    (hk : p.key ≠ k) :
    mrcWalk now k n (p :: l) =
      ((mrcWalk now k (n + 1) l).1, p :: (mrcWalk now k (n + 1) l).2.1,
        (mrcWalk now k (n + 1) l).2.2) := by
  simp [mrcWalk, hp, hn.ne, hk]

/-- **The walk ends at the frame if one of the entries before the last one of a full bucket is its
entry, and else these are the entries that stay.** -/
theorem mrcWalk_spec (hn : n < rtwMrcQueueMaxLen) :
    ((mrcWalk now k n l).1 ↔
      ∃ p ∈ (l.filter (MrcEntry.fresh now)).take (rtwMrcQueueMaxLen - 1 - n), p.key = k) ∧
    ((mrcWalk now k n l).1 = false → (mrcWalk now k n l).2.1 =
      (l.filter (MrcEntry.fresh now)).take (rtwMrcQueueMaxLen - 1 - n)) := by
  induction l generalizing n with
  | nil => simp [mrcWalk]
  | cons p l ih =>
    by_cases hp : p.fresh now
    · rw [List.filter_cons_of_pos hp]
      by_cases hfull : n + 1 = rtwMrcQueueMaxLen
      · have hzero : rtwMrcQueueMaxLen - 1 - n = 0 := by omega
        have ih := ih hn
        rw [hzero, List.take_zero] at ih ⊢
        rw [mrcWalk_of_full hp hfull]
        exact ih
      · have hlt : n + 1 < rtwMrcQueueMaxLen := by omega
        have hsucc : rtwMrcQueueMaxLen - 1 - n = rtwMrcQueueMaxLen - 1 - (n + 1) + 1 := by omega
        rw [hsucc, List.take_succ_cons]
        by_cases hk : p.key = k
        · rw [mrcWalk_of_eq hp hlt hk]
          exact ⟨iff_of_true rfl ⟨p, List.mem_cons_self, hk⟩, fun h => nomatch h⟩
        · rw [mrcWalk_of_ne hp hlt hk]
          obtain ⟨ihit, imiss⟩ := ih hlt
          refine ⟨ihit.trans ?_, fun h => congrArg (p :: ·) (imiss h)⟩
          simp [hk]
    · rw [List.filter_cons_of_neg hp, mrcWalk_of_stale (eq_false_of_ne_true hp)]
      exact ih hn

/-- **A walk that ends at the frame leaves the bucket as it is.** -/
theorem mrcWalk_of_hit (hn : n < rtwMrcQueueMaxLen)
    (hl : l.Pairwise fun a b => b.fresh now → a.fresh now) (hit : (mrcWalk now k n l).1) :
    (mrcWalk now k n l).2.1 = l := by
  induction l generalizing n with
  | nil => rfl
  | cons p l ih =>
    obtain ⟨q, hq, hqk⟩ := (mrcWalk_spec hn).1.1 hit
    by_cases hp : p.fresh now
    · by_cases hfull : n + 1 = rtwMrcQueueMaxLen
      · have hzero : rtwMrcQueueMaxLen - 1 - n = 0 := by omega
        rw [hzero, List.take_zero] at hq
        exact absurd hq List.not_mem_nil
      · have hlt : n + 1 < rtwMrcQueueMaxLen := by omega
        by_cases hk : p.key = k
        · rw [mrcWalk_of_eq hp hlt hk]
        · rw [mrcWalk_of_ne hp hlt hk] at hit ⊢
          exact congrArg (p :: ·) (ih hlt (List.Pairwise.of_cons hl) hit)
    · rw [filter_eq_nil_of_head hl hp, List.take_nil] at hq
      exact absurd hq List.not_mem_nil

end Walk

/-! ## The log of a bucket -/

def logOf (added : List MrcEntry) (i : ℕ) : List MrcEntry :=
  added.filter fun e => mrcIdx e.seqnum = i

theorem logOf_cons_self (e : MrcEntry) (added : List MrcEntry) :
    logOf (e :: added) (mrcIdx e.seqnum) = e :: logOf added (mrcIdx e.seqnum) :=
  List.filter_cons_of_pos (decide_eq_true rfl)

theorem logOf_split {e : MrcEntry} {i : ℕ} (hi : mrcIdx e.seqnum = i) (l₂ l₃ : List MrcEntry) :
    logOf (l₂ ++ e :: l₃) i = logOf l₂ i ++ e :: logOf l₃ i := by
  simp [logOf, hi]

theorem logOf_cons_of_ne {e : MrcEntry} {i : ℕ} (hi : i ≠ mrcIdx e.seqnum)
    (added : List MrcEntry) : logOf (e :: added) i = logOf added i :=
  List.filter_cons_of_neg fun h => hi (of_decide_eq_true h).symm

section Log

variable {msToSystime : ℕ → ℕ} {now : ℕ} {s : MrcLog} {c : MrcCall}

structure BucketOf (now : ℕ) (b log : List MrcEntry) : Prop where
  first : b <+: log.take rtwMrcQueueMaxLen
  fresh : b.filter (MrcEntry.fresh now) =
    (log.take rtwMrcQueueMaxLen).filter (MrcEntry.fresh now)
  nodup : ((b.filter (MrcEntry.fresh now)).map MrcEntry.key).Nodup

/-- The entries were added at times up to `now`, and every bucket is the one of its log. -/
structure MrcLog.Inv (msToSystime : ℕ → ℕ) (now : ℕ) (s : MrcLog) : Prop where
  sorted : s.added.Pairwise fun a b => b.expTime ≤ a.expTime
  bound : ∀ e ∈ s.added, e.expTime ≤ now + msToSystime rtwMrcTimeoutMs
  bucket : ∀ i, BucketOf now (s.mrc.bucket i) (logOf s.added i)

theorem fresh_mono {now' : ℕ} (h : now ≤ now') {p : MrcEntry} (hp : p.fresh now') :
    p.fresh now := by
  rw [MrcEntry.fresh, decide_eq_true_iff] at hp ⊢
  exact h.trans hp

theorem filter_fresh_mono {now' : ℕ} (h : now ≤ now') (l : List MrcEntry) :
    (l.filter (MrcEntry.fresh now)).filter (MrcEntry.fresh now') =
      l.filter (MrcEntry.fresh now') := by
  rw [List.filter_filter]
  refine List.filter_congr fun p _ => ?_
  rw [Bool.and_eq_left_iff_imp]
  exact fresh_mono h

theorem fresh_falling {l : List MrcEntry} (hl : l.Pairwise fun a b => b.expTime ≤ a.expTime)
    (now : ℕ) : l.Pairwise fun a b => b.fresh now → a.fresh now := by
  refine hl.imp fun {a b} hab hb => ?_
  rw [MrcEntry.fresh, decide_eq_true_iff] at hb ⊢
  exact hb.trans hab

theorem BucketOf.mono {b log : List MrcEntry} (h : BucketOf now b log) {now' : ℕ}
    (hle : now ≤ now') : BucketOf now' b log where
  first := h.first
  fresh := by rw [← filter_fresh_mono hle, h.fresh, filter_fresh_mono hle]
  nodup := by
    rw [← filter_fresh_mono hle]
    exact h.nodup.sublist (List.filter_sublist.map _)

/-- **The bucket of a miss is the one of the longer log.** -/
theorem BucketOf.cons {b log : List MrcEntry} {e : MrcEntry} (h : BucketOf now b log)
    (hlog : log.Pairwise fun a b => b.expTime ≤ a.expTime) (he : e.fresh now)
    (hnew : ∀ p ∈ (b.filter (MrcEntry.fresh now)).take (rtwMrcQueueMaxLen - 1), p.key ≠ e.key) :
    BucketOf now (e :: (b.filter (MrcEntry.fresh now)).take (rtwMrcQueueMaxLen - 1))
      (e :: log) := by
  have hfall := fresh_falling hlog now
  have hkeep : (b.filter (MrcEntry.fresh now)).take (rtwMrcQueueMaxLen - 1) =
      (log.take (rtwMrcQueueMaxLen - 1)).filter (MrcEntry.fresh now) := by
    rw [h.fresh, ← take_filter_of_falling hfall, List.take_take, ← take_filter_of_falling hfall]
    rfl
  have htake : (e :: log).take rtwMrcQueueMaxLen = e :: log.take (rtwMrcQueueMaxLen - 1) := rfl
  have hstay : ((log.take (rtwMrcQueueMaxLen - 1)).filter (MrcEntry.fresh now)).filter
      (MrcEntry.fresh now) = (log.take (rtwMrcQueueMaxLen - 1)).filter (MrcEntry.fresh now) :=
    filter_fresh_mono (Nat.le_refl now) _
  refine ⟨?_, ?_, ?_⟩
  · rw [hkeep, htake, List.cons_prefix_cons]
    exact ⟨rfl, filter_prefix_of_falling (hfall.sublist (List.take_sublist _ _))⟩
  · rw [hkeep, htake, List.filter_cons_of_pos he, List.filter_cons_of_pos he, hstay]
  · rw [List.filter_cons_of_pos he, hkeep, hstay, ← hkeep, List.map_cons, List.nodup_cons]
    refine ⟨fun hmem => ?_, h.nodup.sublist ((List.take_sublist _ _).map _)⟩
    obtain ⟨p, hp, hkey⟩ := List.mem_map.1 hmem
    exact hnew p hp hkey

theorem MrcLog.Inv.init (now : ℕ) : MrcLog.Inv msToSystime now {} where
  sorted := List.Pairwise.nil
  bound := fun _ h => absurd h List.not_mem_nil
  bucket := fun _ => ⟨List.nil_prefix, rfl, List.nodup_nil⟩

theorem MrcLog.Inv.mono (h : s.Inv msToSystime now) {now' : ℕ} (hle : now ≤ now') :
    s.Inv msToSystime now' where
  sorted := h.sorted
  bound := fun e he => (h.bound e he).trans (Nat.add_le_add_right hle _)
  bucket := fun i => (h.bucket i).mono hle

theorem MrcLog.Inv.sortedLog (h : s.Inv msToSystime now) (i : ℕ) :
    (logOf s.added i).Pairwise fun a b => b.expTime ≤ a.expTime :=
  h.sorted.sublist List.filter_sublist

theorem MrcLog.Inv.sortedBucket (h : s.Inv msToSystime now) (i : ℕ) :
    (s.mrc.bucket i).Pairwise fun a b => b.expTime ≤ a.expTime :=
  (h.sortedLog i).sublist ((h.bucket i).first.sublist.trans (List.take_sublist _ _))

theorem rtwMrcCheck_ne_zero_iff_walk (m : Mrc) (c : MrcCall) :
    (rtwMrcCheck msToSystime m c).1 ≠ 0 ↔
      (mrcWalk c.now c.key 0 (m.bucket (mrcIdx c.key.seq))).1 := by
  unfold rtwMrcCheck
  by_cases hit : (mrcWalk c.now c.key 0 (m.bucket (mrcIdx c.key.seq))).1
  · simp [hit]
  · cases hc : c.alloc <;> simp [hit]

/-- **A call finds its frame among the entries that have not expired, but for the last one of a
full bucket.** -/
theorem rtwMrcCheck_ne_zero_iff (m : Mrc) (c : MrcCall) :
    (rtwMrcCheck msToSystime m c).1 ≠ 0 ↔
      ∃ p ∈ (m.freshOf c).take (rtwMrcQueueMaxLen - 1), p.key = c.key :=
  (rtwMrcCheck_ne_zero_iff_walk m c).trans (mrcWalk_spec rtwMrcQueueMaxLen_pos).1

theorem call_of_hit (h : s.Inv msToSystime c.now)
    (hit : (rtwMrcCheck msToSystime s.mrc c).1 ≠ 0) :
    (s.call msToSystime c).added = s.added ∧ (s.call msToSystime c).mrc.bucket = s.mrc.bucket := by
  have hwalk := (rtwMrcCheck_ne_zero_iff_walk s.mrc c).1 hit
  have hkeep := mrcWalk_of_hit rtwMrcQueueMaxLen_pos (fresh_falling (h.sortedBucket _) c.now) hwalk
  refine ⟨if_neg fun h => hit h.1, ?_⟩
  show (rtwMrcCheck msToSystime s.mrc c).2.bucket = _
  simp only [rtwMrcCheck, if_pos hwalk, hkeep]
  exact Function.update_eq_self _ _

theorem call_of_miss (halloc : c.alloc) (miss : (rtwMrcCheck msToSystime s.mrc c).1 = 0) :
    (s.call msToSystime c).added = c.entry msToSystime :: s.added ∧
      (s.call msToSystime c).mrc.bucket = Function.update s.mrc.bucket (mrcIdx c.key.seq)
        (c.entry msToSystime :: (s.mrc.freshOf c).take (rtwMrcQueueMaxLen - 1)) := by
  have hwalk := mt (rtwMrcCheck_ne_zero_iff_walk s.mrc c).2 (not_not_intro miss)
  have hkeep := (mrcWalk_spec rtwMrcQueueMaxLen_pos).2 (eq_false_of_ne_true hwalk)
  refine ⟨if_pos ⟨miss, halloc⟩, ?_⟩
  show (rtwMrcCheck msToSystime s.mrc c).2.bucket = _
  simp only [rtwMrcCheck, if_neg hwalk, if_pos halloc, hkeep]
  rfl

/-- A call keeps the invariant: an entry that is added is the newest one of its bucket. -/
theorem MrcLog.Inv.call (h : s.Inv msToSystime c.now) (halloc : c.alloc) :
    (s.call msToSystime c).Inv msToSystime c.now := by
  by_cases miss : (rtwMrcCheck msToSystime s.mrc c).1 = 0
  · obtain ⟨hadded, hbucket⟩ := call_of_miss halloc miss
    have hfresh : (c.entry msToSystime).fresh c.now := decide_eq_true (Nat.le_add_right _ _)
    refine ⟨?_, ?_, fun i => ?_⟩
    · rw [hadded]
      exact List.pairwise_cons.2 ⟨h.bound, h.sorted⟩
    · rw [hadded]
      exact List.forall_mem_cons.2 ⟨Nat.le_refl _, h.bound⟩
    · rw [hadded, hbucket]
      by_cases hi : i = mrcIdx c.key.seq
      · subst hi
        rw [Function.update_self]
        refine (logOf_cons_self (c.entry msToSystime) s.added).symm ▸
          (h.bucket _).cons (h.sortedLog _) hfresh fun p hp hkey => ?_
        exact (rtwMrcCheck_ne_zero_iff s.mrc c).2 ⟨p, hp, hkey⟩ miss
      · rw [Function.update_of_ne hi, logOf_cons_of_ne hi]
        exact h.bucket i
  · obtain ⟨hadded, hbucket⟩ := call_of_hit h miss
    exact ⟨hadded ▸ h.sorted, hadded ▸ h.bound, fun i => hadded ▸ hbucket ▸ h.bucket i⟩

theorem MrcLog.Inv.holds_iff (h : s.Inv msToSystime c.now) :
    s.mrc.Holds c ↔ ∃ p ∈ s.mrc.freshOf c, p.key = c.key := by
  constructor
  · rintro ⟨i, p, hp, hfresh, hkey⟩
    have hlog := List.mem_of_mem_take ((h.bucket i).first.mem hp)
    have hidx : mrcIdx p.seqnum = i := of_decide_eq_true (List.mem_filter.1 hlog).2
    have hseq : p.seqnum = c.key.seq := congrArg MrcKey.seq hkey
    rw [← hidx, hseq] at hp
    exact ⟨p, List.mem_filter.2 ⟨hp, hfresh⟩, hkey⟩
  · rintro ⟨p, hp, hkey⟩
    exact ⟨_, p, (List.mem_filter.1 hp).1, (List.mem_filter.1 hp).2, hkey⟩

theorem MrcLog.Inv.freshOf_eq (h : s.Inv msToSystime c.now) :
    s.mrc.freshOf c = (s.mrc.freshOf c).take (rtwMrcQueueMaxLen - 1) ++
      ((s.mrc.freshOf c)[rtwMrcQueueMaxLen - 1]?).toList := by
  have hlen : (s.mrc.freshOf c).length ≤ rtwMrcQueueMaxLen :=
    (List.filter_sublist.trans (h.bucket _).first.sublist).length_le.trans
      (List.length_take_le _ _)
  rw [← List.take_add_one]
  exact (List.take_of_length_le hlen).symm

/-- **A call answers by the cache unless the entry of its frame is the last one of a full
bucket.** -/
theorem MrcLog.Inv.answer_iff (h : s.Inv msToSystime c.now) :
    ((rtwMrcCheck msToSystime s.mrc c).1 ≠ 0 ↔ s.mrc.Holds c) ↔ ¬s.mrc.AtLast c := by
  rw [rtwMrcCheck_ne_zero_iff, h.holds_iff]
  have hsplit := h.freshOf_eq
  have hnodup : ((s.mrc.freshOf c).map MrcEntry.key).Nodup := (h.bucket _).nodup
  constructor
  · rintro hiff ⟨p, hp, hkey⟩
    obtain ⟨q, hq, hqkey⟩ := hiff.2 ⟨p, List.mem_of_getElem? hp, hkey⟩
    rw [hsplit, hp, List.map_append, List.nodup_append] at hnodup
    refine hnodup.2.2 _ (List.mem_map_of_mem hq) p.key (by simp) (hqkey.trans hkey.symm)
  · intro hlast
    refine ⟨fun ⟨p, hp, hkey⟩ => ⟨p, List.mem_of_mem_take hp, hkey⟩, fun ⟨p, hp, hkey⟩ => ?_⟩
    rw [hsplit, List.mem_append, Option.mem_toList] at hp
    rcases hp with hp | hp
    · exact ⟨p, hp, hkey⟩
    · exact absurd ⟨p, hp, hkey⟩ hlast

def Spaced (msToSystime : ℕ → ℕ) (added : List MrcEntry) : Prop :=
  ∀ l₁ e l₂ e' l₃, added = l₁ ++ e :: (l₂ ++ e' :: l₃) → e.key = e'.key →
    e.expTime ≤ e'.expTime + msToSystime rtwMrcTimeoutMs →
    rtwMrcQueueMaxLen ≤
      (l₂.filter fun p => mrcIdx p.seqnum = mrcIdx e.seqnum ∧ p.key ≠ e.key).length

/-- The frames between an entry and the one of the same frame that a miss adds. -/
theorem MrcLog.Inv.between (h : s.Inv msToSystime c.now)
    (hnone : ∀ p ∈ s.mrc.freshOf c, p.key ≠ c.key) {l₂ l₃ : List MrcEntry} {e' : MrcEntry}
    (hadded : s.added = l₂ ++ e' :: l₃) (hkey : e'.key = c.key) (hfresh : e'.fresh c.now) :
    rtwMrcQueueMaxLen ≤
      (l₂.filter fun p => mrcIdx p.seqnum = mrcIdx c.key.seq ∧ p.key ≠ c.key).length := by
  have hidx : mrcIdx e'.seqnum = mrcIdx c.key.seq := congrArg (mrcIdx ∘ MrcKey.seq) hkey
  have hlog : logOf s.added (mrcIdx c.key.seq) =
      logOf l₂ (mrcIdx c.key.seq) ++ e' :: logOf l₃ (mrcIdx c.key.seq) := by
    rw [hadded, logOf_split hidx]
  -- The first four entries of the log that have not expired are in the bucket.
  have hfirst : ∀ p ∈ (logOf s.added (mrcIdx c.key.seq)).take rtwMrcQueueMaxLen,
      p.fresh c.now → p.key ≠ c.key := fun p hp hpf => by
    refine hnone p ?_
    rw [Mrc.freshOf, (h.bucket _).fresh]
    exact List.mem_filter.2 ⟨hp, hpf⟩
  have hlen : rtwMrcQueueMaxLen ≤ (logOf l₂ (mrcIdx c.key.seq)).length := by
    by_contra hlt
    refine hfirst e' ?_ hfresh hkey
    rw [hlog, List.take_append, List.take_of_length_le (Nat.le_of_not_le hlt), List.mem_append]
    obtain ⟨n, hn⟩ := Nat.exists_eq_add_of_lt (Nat.lt_of_not_le hlt)
    rw [hn, Nat.add_assoc, Nat.add_sub_cancel_left, List.take_succ_cons]
    exact .inr List.mem_cons_self
  have htake : (logOf s.added (mrcIdx c.key.seq)).take rtwMrcQueueMaxLen =
      (logOf l₂ (mrcIdx c.key.seq)).take rtwMrcQueueMaxLen := by
    rw [hlog, List.take_append_of_le_length hlen]
  have hnewer : ∀ p ∈ logOf l₂ (mrcIdx c.key.seq), p.fresh c.now := fun p hp => by
    have hfall := fresh_falling (h.sortedLog (mrcIdx c.key.seq)) c.now
    rw [hlog, List.pairwise_append] at hfall
    exact hfall.2.2 p hp e' List.mem_cons_self hfresh
  calc rtwMrcQueueMaxLen = ((logOf l₂ (mrcIdx c.key.seq)).take rtwMrcQueueMaxLen).length :=
        (List.length_take_of_le hlen).symm
    _ = (((logOf l₂ (mrcIdx c.key.seq)).take rtwMrcQueueMaxLen).filter
          fun p => p.key ≠ c.key).length := by
        rw [List.filter_eq_self.2 fun p hp => ?_]
        exact decide_eq_true (hfirst p (htake ▸ hp) (hnewer p (List.mem_of_mem_take hp)))
    _ ≤ ((logOf l₂ (mrcIdx c.key.seq)).filter fun p => p.key ≠ c.key).length :=
        ((List.take_sublist _ _).filter _).length_le
    _ = _ := by
        rw [logOf, List.filter_filter]
        simp only [Bool.decide_and, Bool.and_comm]

theorem MrcLog.Inv.spaced_call (h : s.Inv msToSystime c.now) (halloc : c.alloc)
    (hlast : ¬s.mrc.AtLast c) (hs : Spaced msToSystime s.added) :
    Spaced msToSystime (s.call msToSystime c).added := by
  by_cases miss : (rtwMrcCheck msToSystime s.mrc c).1 = 0
  · rw [(call_of_miss halloc miss).1]
    have hnone : ∀ p ∈ s.mrc.freshOf c, p.key ≠ c.key := fun p hp hkey =>
      (h.answer_iff.2 hlast).2 (h.holds_iff.2 ⟨p, hp, hkey⟩) miss
    intro l₁ e l₂ e' l₃ hsplit hkey hexp
    cases l₁ with
    | nil =>
      obtain ⟨rfl, hadded⟩ := List.cons_eq_cons.1 hsplit
      have hfresh : e'.fresh c.now := decide_eq_true (Nat.add_le_add_iff_right.1 hexp)
      exact h.between hnone hadded hkey.symm hfresh
    | cons _ l₁ => exact hs l₁ e l₂ e' l₃ (List.cons_eq_cons.1 hsplit).2 hkey hexp
  · rwa [(call_of_hit h miss).1]

end Log

/-! ## Runs -/

section Runs

variable (msToSystime : ℕ → ℕ) (calls : List MrcCall)

def Timely : Prop :=
  (calls.Pairwise fun a b => a.now ≤ b.now) ∧ ∀ c ∈ calls, c.alloc

def AnswersByCache : Prop :=
  ∀ pre c post, calls = pre ++ c :: post →
    ((rtwMrcCheck msToSystime (MrcLog.run msToSystime pre).mrc c).1 ≠ 0 ↔
      (MrcLog.run msToSystime pre).mrc.Holds c)

def NoneAtLast : Prop :=
  ∀ pre c post, calls = pre ++ c :: post → ¬(MrcLog.run msToSystime pre).mrc.AtLast c

variable {msToSystime calls}

theorem MrcLog.run_concat (pre : List MrcCall) (c : MrcCall) :
    MrcLog.run msToSystime (pre ++ [c]) = (MrcLog.run msToSystime pre).call msToSystime c := by
  rw [MrcLog.run, List.foldl_append]
  rfl

theorem Timely.left {pre post : List MrcCall} (h : Timely (pre ++ post)) : Timely pre :=
  ⟨(List.pairwise_append.1 h.1).1, fun c hc => h.2 c (List.mem_append_left _ hc)⟩

theorem Timely.last_le {pre post : List MrcCall} {c : MrcCall} (h : Timely (pre ++ c :: post)) :
    (pre.getLast?.map MrcCall.now).getD 0 ≤ c.now := by
  cases hlast : pre.getLast? with
  | none => exact Nat.zero_le _
  | some d =>
    exact (List.pairwise_append.1 h.1).2.2 d (List.mem_of_getLast? hlast) c List.mem_cons_self

theorem run_inv (h : Timely calls) : (MrcLog.run msToSystime calls).Inv msToSystime
    ((calls.getLast?.map MrcCall.now).getD 0) := by
  induction calls using List.reverseRecOn with
  | nil => exact MrcLog.Inv.init _
  | append_singleton pre c ih =>
    have halloc := h.2 c (List.mem_append_right _ List.mem_cons_self)
    have hpre := (ih h.left).mono h.last_le
    rw [MrcLog.run_concat, List.getLast?_concat]
    exact hpre.call halloc

theorem run_inv_call {pre post : List MrcCall} {c : MrcCall} (h : Timely (pre ++ c :: post)) :
    (MrcLog.run msToSystime pre).Inv msToSystime c.now :=
  (run_inv h.left).mono h.last_le

theorem run_spaced (h : Timely calls) (hlast : NoneAtLast msToSystime calls) :
    Spaced msToSystime (MrcLog.run msToSystime calls).added := by
  induction calls using List.reverseRecOn with
  | nil =>
    intro l₁ e l₂ e' l₃ hsplit
    exact absurd hsplit (List.append_ne_nil_of_right_ne_nil _ (List.cons_ne_nil _ _)).symm
  | append_singleton pre c ih =>
    have halloc := h.2 c (List.mem_append_right _ List.mem_cons_self)
    have hpre := ih h.left fun p d q hpq => hlast p d (q ++ [c]) (by simp [hpq])
    rw [MrcLog.run_concat]
    exact (run_inv_call h).spaced_call halloc (hlast pre c [] rfl) hpre

/-- **The calls answer by the cache if and only if none of them is for the last entry of a full
bucket. Then a frame is accepted again within the timeout only if four others of its bucket were
accepted in between. In either case the buckets hold four entries at most, the newest first.** -/
theorem mrcLog_law (msToSystime : ℕ → ℕ) (calls : List MrcCall) (h : Timely calls) :
    (AnswersByCache msToSystime calls ↔ NoneAtLast msToSystime calls) ∧
    (NoneAtLast msToSystime calls → Spaced msToSystime (MrcLog.run msToSystime calls).added) ∧
    ∀ i, (MrcLog.run msToSystime calls).mrc.bucket i <+:
      (logOf (MrcLog.run msToSystime calls).added i).take rtwMrcQueueMaxLen := by
  refine ⟨?_, run_spaced h, fun i => ((run_inv h).bucket i).first⟩
  constructor
  · intro hans pre c post hsplit
    subst hsplit
    exact (run_inv_call h).answer_iff.1 (hans pre c post rfl)
  · intro hlast pre c post hsplit
    subst hsplit
    exact (run_inv_call h).answer_iff.2 (hlast pre c post rfl)

end Runs

def fiveFrames : List MrcCall :=
  [⟨0, ⟨.zero, 0⟩, true⟩, ⟨1, ⟨.zero, 256⟩, true⟩, ⟨2, ⟨.zero, 512⟩, true⟩,
    ⟨3, ⟨.zero, 768⟩, true⟩, ⟨4, ⟨.zero, 0⟩, true⟩]

theorem fiveFrames_timely : Timely fiveFrames := by
  constructor <;> decide

theorem mrcLog_law_fiveFrames :
    (AnswersByCache id fiveFrames ↔ NoneAtLast id fiveFrames) ∧
    (NoneAtLast id fiveFrames → Spaced id (MrcLog.run id fiveFrames).added) ∧
    ∀ i, (MrcLog.run id fiveFrames).mrc.bucket i <+:
      (logOf (MrcLog.run id fiveFrames).added i).take rtwMrcQueueMaxLen :=
  mrcLog_law id fiveFrames fiveFrames_timely

/-- The first of the frames is in the cache when it comes again, and the call returns zero. -/
theorem not_answersByCache :
    ¬∀ (msToSystime : ℕ → ℕ) (calls : List MrcCall), Timely calls →
      AnswersByCache msToSystime calls := by
  intro h
  have hans := h id fiveFrames fiveFrames_timely (fiveFrames.take 4) ⟨4, ⟨.zero, 0⟩, true⟩ [] rfl
  refine hans.2 ⟨0, ⟨3000, 0, .zero⟩, ?_, ?_, rfl⟩ ?_ <;> decide

end Rtl88x2eu.Mesh
