import Rtl88x2eu.Efuse.Adapter

/-!
# What the efuse operations do

One lemma for each operation, so that the later modules do not unfold them. A run that ends well is
inverted into the state that it leaves; a run that may fail on the way has written a first part of
its bytes, which `Writes` says.

## Main definitions

* `addressed`, `Writes`, `programBytes`

## Main results

* `readHwEfuse_returns`, `writeHwEfuse_returns`, `writeBytes_returns`: the accesses that end well
* `readLogEfuseMap_returns`: the logical map is the one of the cells
* `writes_programEfuse`: what the programmer writes, also if it fails on the way
-/

namespace Rtl88x2eu.Efuse

open RecordLog Failing

variable {s s' : Adapter} {i offset size : ℕ} {value : UInt8} {bs cs : List UInt8} {map : Map}

theorem expect_returns {e : RetStatus} {u : Unit} :
    Returns (expect e) s u s' ↔
      s.answers 0 = true ∧ { s with answers := fun n => s.answers (n + 1) } = s' := by
  unfold expect
  simp only [returns_bind, returns_look, returns_modify, returns_failIf]
  constructor
  · rintro ⟨_, _, ⟨rfl, rfl⟩, _, _, rfl, hok, rfl⟩
    exact ⟨by simpa using hok, rfl⟩
  · rintro ⟨hok, rfl⟩
    exact ⟨_, _, ⟨rfl, rfl⟩, ⟨⟩, _, rfl, by simpa using hok, rfl⟩

theorem expect_fails {err err' : RetStatus} : Fails (expect err') s err s' ↔
    s.answers 0 = false ∧ err' = err ∧ { s with answers := fun n => s.answers (n + 1) } = s' := by
  simp only [expect, fails_bind, not_fails_look, not_fails_modify, false_or, returns_look,
    returns_modify, fails_failIf]
  constructor
  · rintro ⟨_, _, ⟨rfl, rfl⟩, _, _, rfl, hfail, herr, rfl⟩
    exact ⟨hfail, herr, rfl⟩
  · rintro ⟨hfail, herr, rfl⟩
    exact ⟨_, _, ⟨rfl, rfl⟩, ⟨⟩, _, rfl, hfail, herr, rfl⟩

theorem frames_expect {τ : Type} {g : Adapter → τ} {e : RetStatus}
    (h : ∀ s a, g { s with answers := a } = g s) : Frames g (expect e) :=
  Frames.look.bind fun _ => (Frames.modify fun s => h s _).bind fun _ => Frames.failIf

/-! ## The cells -/

theorem readHwEfuse_returns (h : Returns (readHwEfuse offset size) s map s') :
    (∃ a, s' = { s with answers := a }) ∧ ∀ i < size, map i = s.cells (offset + i) := by
  induction size generalizing map s' with
  | zero =>
    obtain ⟨-, rfl⟩ := returns_pure.mp h
    exact ⟨⟨s.answers, rfl⟩, fun i hi => absurd hi (Nat.not_lt_zero i)⟩
  | succ size ih =>
    unfold readHwEfuse at h
    obtain ⟨read, t, hread, h⟩ := returns_bind.mp h
    obtain ⟨⟨a, rfl⟩, hcells⟩ := ih hread
    simp only [returns_bind, expect_returns, returns_look, returns_pure] at h
    obtain ⟨_, _, ⟨-, rfl⟩, _, _, ⟨rfl, rfl⟩, rfl, rfl⟩ := h
    refine ⟨⟨_, rfl⟩, fun i hi => ?_⟩
    rcases Nat.lt_succ_iff_lt_or_eq.mp hi with hlt | rfl
    · rw [Function.update_of_ne (by omega), hcells i hlt]
    · rw [Function.update_self]

theorem frames_readHwEfuse {τ : Type} {g : Adapter → τ}
    (h : ∀ s a, g { s with answers := a } = g s) : Frames g (readHwEfuse offset size) := by
  induction size with
  | zero => exact Frames.pure
  | succ size ih =>
    exact ih.bind fun _ => (frames_expect h).bind fun _ => Frames.look.bind fun _ => Frames.pure

theorem writeHwEfuse_returns {u : Unit} (h : Returns (writeHwEfuse offset value) s u s') :
    ∃ a, s' = { s with
      efuseMapValid := false
      cells := Function.update s.cells offset (s.burn offset (s.cells offset) value)
      burned := s.burned ++ [(offset, value)]
      answers := a } := by
  simp only [writeHwEfuse, returns_bind, returns_modify, expect_returns, returns_look,
    returns_onlyIf, returns_failIf] at h
  obtain ⟨_, _, rfl, _, _, rfl, _, _, ⟨-, rfl⟩, _, _, ⟨rfl, rfl⟩, hcheck⟩ := h
  rcases hcheck with ⟨-, read, t, hread, -, rfl⟩ | ⟨-, rfl⟩
  · obtain ⟨⟨a, rfl⟩, -⟩ := readHwEfuse_returns hread
    exact ⟨a, rfl⟩
  · exact ⟨_, rfl⟩

theorem exec_writeHwEfuse (offset : ℕ) (value : UInt8) (s : Adapter) :
    (exec (writeHwEfuse offset value) s).2.burned = s.burned ++ [(offset, value)] ∧
      (exec (writeHwEfuse offset value) s).2.efuseEnd = s.efuseEnd := by
  have hcheck : Frames (fun s : Adapter => (s.burned, s.efuseEnd)) (do
      expect .efuseWFail
      let check ← look fun s => s.efuseAutoCheckEn
      onlyIf (check = true) do
        let valueRead ← readHwEfuse offset 1
        failIf (valueRead 0 ≠ value) .efuseWFail : M Unit) :=
    (frames_expect fun _ _ => rfl).bind fun _ => Frames.look.bind fun _ =>
      Frames.onlyIf ((frames_readHwEfuse fun _ _ => rfl).bind fun _ => Frames.failIf)
  unfold writeHwEfuse
  rw [exec_bind, exec_modify]
  dsimp only
  rw [exec_bind, exec_modify]
  dsimp only
  exact Prod.mk.inj (hcheck _)

/-- The bytes `bs` with the addresses from `i` on. -/
def addressed : ℕ → List UInt8 → List (ℕ × UInt8)
  | _, [] => []
  | i, b :: bs => (i, b) :: addressed (i + 1) bs

theorem addressed_append :
    addressed i (bs ++ cs) = addressed i bs ++ addressed (i + bs.length) cs := by
  induction bs generalizing i with
  | nil => rfl
  | cons b bs ih =>
    rw [List.cons_append, addressed, ih, addressed, List.cons_append, List.length_cons,
      show i + 1 + bs.length = i + (bs.length + 1) by omega]

theorem mem_addressed {p : ℕ × UInt8} (h : p ∈ addressed i bs) : i ≤ p.1 ∧ p.1 < i + bs.length := by
  induction bs generalizing i with
  | nil => cases h
  | cons b bs ih =>
    rw [List.length_cons]
    rcases List.mem_cons.mp h with rfl | h
    · exact ⟨le_rfl, by show i < _; omega⟩
    · have := ih h
      omega

/-- Cells that take the byte they are given. -/
def Storing (s : Adapter) : Prop := ∀ n old v, s.burn n old v = v

theorem place_singleton (mem : Map) (i : ℕ) (b : UInt8) :
    place mem i [b] = Function.update mem i b := by
  funext n
  rcases Nat.lt_trichotomy n i with h | rfl | h
  · rw [place_of_lt h, Function.update_of_ne (by omega)]
  · rw [Function.update_self]
    exact place_get (k := 0) (by simp)
  · rw [place_of_le (by simp; omega), Function.update_of_ne (by omega)]

theorem writeBytes_returns {u : Unit} (hs : Storing s) (h : Returns (writeBytes i bs) s u s') :
    ∃ a v, s' = { s with
      efuseMapValid := v
      cells := place s.cells i bs
      burned := s.burned ++ addressed i bs
      answers := a } ∧ (bs ≠ [] → v = false) := by
  induction bs generalizing s i with
  | nil =>
    obtain ⟨-, rfl⟩ := returns_pure.mp h
    exact ⟨s.answers, s.efuseMapValid, by simp [addressed], fun h => absurd rfl h⟩
  | cons b bs ih =>
    obtain ⟨_, t, hfirst, hrest⟩ := returns_bind.mp h
    obtain ⟨a, rfl⟩ := writeHwEfuse_returns hfirst
    obtain ⟨a', v, rfl, hv⟩ := ih (by exact hs) hrest
    refine ⟨a', v, ?_, fun _ => ?_⟩
    · rw [place_cons, place_singleton, hs, addressed, List.append_assoc]
      rfl
    · by_cases hbs : bs = []
      · subst hbs
        have := (returns_pure.mp hrest).2
        exact (congrArg Adapter.efuseMapValid this).symm
      · exact hv hbs

/-! ## Programs that write behind the entries -/

/-- The program writes `bs` from the end of the entries on. -/
def Writes (m : M Unit) (bs : List UInt8) : Prop :=
  ∀ s, ∃ n, (exec m s).2.burned = s.burned ++ addressed s.efuseEnd (bs.take n) ∧
    ((exec m s).1 = .ok () → n = bs.length ∧ (exec m s).2.efuseEnd = s.efuseEnd + bs.length)

theorem Writes.bind {m m' : M Unit} (h : Writes m bs) (h' : Writes m' cs) :
    Writes (m >>= fun _ => m') (bs ++ cs) := by
  intro s
  obtain ⟨n, hburned, hend⟩ := h s
  rw [exec_bind]
  rcases hexec : exec m s with ⟨e | u, t⟩
  · rw [hexec] at hburned
    refine ⟨min n bs.length, ?_, fun hok => by cases hok⟩
    rw [List.take_append_of_le_length (Nat.min_le_right _ _)]
    show t.burned = _
    rw [hburned]
    congr 2
    exact (List.take_eq_take_min ..)
  · rw [hexec] at hburned hend
    obtain ⟨rfl, hend₁⟩ := hend rfl
    dsimp only at hburned hend₁ ⊢
    obtain ⟨k, hburned', hend'⟩ := h' t
    refine ⟨bs.length + k, ?_, fun hok => ?_⟩
    · rw [hburned', hburned, hend₁, List.append_assoc, List.take_length,
        List.take_length_add_append, addressed_append]
    · obtain ⟨rfl, hend₂⟩ := hend' hok
      rw [hend₂, hend₁, List.length_append]
      exact ⟨rfl, by omega⟩

theorem writes_forM {ι : Type} {body : ι → M Unit} {f : ι → List UInt8}
    (h : ∀ i, Writes (body i) (f i)) (l : List ι) : Writes (forM l body) (l.flatMap f) := by
  induction l with
  | nil => exact fun s => ⟨0, by simp [List.forM_nil, addressed], fun _ => by simp [List.forM_nil]⟩
  | cons i l ih =>
    rw [List.forM_cons, List.flatMap_cons]
    exact (h i).bind ih

theorem exec_writeBytes (i : ℕ) (bs : List UInt8) (s : Adapter) :
    (exec (writeBytes i bs) s).2.efuseEnd = s.efuseEnd ∧
      ∃ n, (exec (writeBytes i bs) s).2.burned = s.burned ++ addressed i (bs.take n) ∧
        ((exec (writeBytes i bs) s).1 = .ok () → n = bs.length) := by
  induction bs generalizing s i with
  | nil => exact ⟨rfl, 0, by simp [writeBytes, addressed], fun _ => rfl⟩
  | cons b bs ih =>
    obtain ⟨hburned, hend⟩ := exec_writeHwEfuse i b s
    unfold writeBytes
    rw [exec_bind]
    rcases hexec : exec (writeHwEfuse i b) s with ⟨e | u, t⟩
    · rw [hexec] at hburned hend
      exact ⟨hend, 1, hburned, fun hok => by cases hok⟩
    · rw [hexec] at hburned hend
      dsimp only at hburned hend ⊢
      obtain ⟨hend', n, hburned', hn⟩ := ih (i := i + 1) t
      refine ⟨hend'.trans hend, n + 1, ?_, fun hok => ?_⟩
      · rw [hburned', hburned, List.append_assoc, List.take_succ_cons]
        rfl
      · rw [hn hok, List.length_cons]

theorem writes_procPgEfuse (info : PgEfuseInfo) (wordEn preWordEn : UInt8) (i : ℕ) :
    Writes (procPgEfuse info wordEn preWordEn i) (pgEntryBytes info wordEn preWordEn i) := by
  intro s
  obtain ⟨hend, n, hburned, hn⟩ :=
    exec_writeBytes s.efuseEnd (pgEntryBytes info wordEn preWordEn i) s
  unfold procPgEfuse
  rw [exec_bind, exec_look]
  dsimp only
  rw [exec_bind]
  rcases hexec : exec (writeBytes s.efuseEnd (pgEntryBytes info wordEn preWordEn i)) s with
    ⟨e | u, t⟩
  · rw [hexec] at hburned
    exact ⟨n, hburned, fun hok => by cases hok⟩
  · rw [hexec] at hburned hn
    exact ⟨n, hburned, fun _ => ⟨hn rfl, rfl⟩⟩

/-- The bytes of the entry for the block at `i`, if its nibble selects a word. -/
def blockBytes (info : PgEfuseInfo) (updatedMask : Map) (i : ℕ) : List UInt8 :=
  if pgPreWordEn updatedMask i > 0 then
    pgEntryBytes info (pgPreWordEn updatedMask i ^^^ 0x0F) (pgPreWordEn updatedMask i) i
  else []

/-- The bytes that `program_efuse_8822e` writes. -/
def programBytes (info : PgEfuseInfo) (updatedMask : Map) : List UInt8 :=
  (strides 8 info.efuseMapSize).flatMap (blockBytes info updatedMask)

/-- **The programmer writes its bytes behind the entries.** -/
theorem writes_programEfuse (info : PgEfuseInfo) (updatedMask : Map) :
    Writes (programEfuse info updatedMask) (programBytes info updatedMask) := by
  refine writes_forM (fun i => ?_) _
  show Writes (onlyIf (pgPreWordEn updatedMask i > 0) _) _
  unfold blockBytes onlyIf
  split
  · exact writes_procPgEfuse info _ _ i
  · exact fun s => ⟨0, by simp [addressed], fun _ => by simp⟩

def physMap (s : Adapter) : Map := copyMap s.cells s.efuseMap

def Coherent (s : Adapter) : Prop := s.efuseMapValid = true → physMap s = s.efuseMap

theorem eepromParser_returns {phyMap : Map} :
    Returns (eepromParser phyMap) s map s' ↔
      ∃ e, eepromParse s.btSwitch phyMap = some (map, e) ∧ { s with efuseEnd := e } = s' := by
  unfold eepromParser
  simp only [returns_bind, returns_look, returns_orThrow, returns_modify, returns_pure]
  constructor
  · rintro ⟨_, _, ⟨rfl, rfl⟩, ⟨m, e⟩, _, ⟨hparse, rfl⟩, _, _, rfl, rfl, rfl⟩
    exact ⟨e, hparse, rfl⟩
  · rintro ⟨e, hparse, rfl⟩
    exact ⟨_, _, ⟨rfl, rfl⟩, (map, e), _, ⟨hparse, rfl⟩, ⟨⟩, _, rfl, rfl, rfl⟩

theorem eepromMaskParser_returns {phyMap : Map} :
    Returns (eepromMaskParser phyMap) s map s' ↔
      ∃ e, maskParse phyMap = some (map, e) ∧ { s with efuseEnd := e } = s' := by
  unfold eepromMaskParser
  simp only [returns_bind, returns_orThrow, returns_modify, returns_pure]
  constructor
  · rintro ⟨⟨m, e⟩, _, ⟨hparse, rfl⟩, _, _, rfl, rfl, rfl⟩
    exact ⟨e, hparse, rfl⟩
  · rintro ⟨e, hparse, rfl⟩
    exact ⟨(map, e), _, ⟨hparse, rfl⟩, ⟨⟩, _, rfl, rfl, rfl⟩

theorem refillEfuseMap_returns {u : Unit} (h : Returns refillEfuseMap s u s') :
    ∃ a null, s' = { s with
      answers := a, efuseMapNull := null, efuseMap := physMap s, efuseMapValid := true } := by
  simp only [refillEfuseMap, returns_bind, expect_returns, returns_look, returns_onlyIf,
    returns_modify] at h
  obtain ⟨_, _, ⟨-, rfl⟩, localMap, t, hread, _, _, ⟨rfl, rfl⟩, _, _, hnull, rfl⟩ := h
  obtain ⟨⟨a, rfl⟩, hcells⟩ := readHwEfuse_returns hread
  have hcopy : copyMap localMap s.efuseMap = physMap s := by
    funext n
    unfold physMap copyMap
    split
    · rename_i hn
      rw [hcells n hn, Nat.zero_add]
    · rfl
  rcases hnull with ⟨-, _, _, ⟨-, rfl⟩, rfl⟩ | ⟨-, rfl⟩
  · exact ⟨_, false, by rw [← hcopy]⟩
  · exact ⟨_, s.efuseMapNull, by rw [← hcopy]⟩

/-- **The logical map that is read is the one of the cells.** -/
theorem readLogEfuseMap_returns (hs : Coherent s) (h : Returns readLogEfuseMap s map s') :
    ∃ a null e, eepromParse s.btSwitch (physMap s) = some (map, e) ∧ s' = { s with
      answers := a, efuseMapNull := null, efuseMap := physMap s, efuseMapValid := true,
      efuseEnd := e } := by
  simp only [readLogEfuseMap, returns_bind, returns_look, returns_onlyIf, eepromParser_returns] at h
  obtain ⟨_, _, ⟨rfl, rfl⟩, _, t, hrefill, _, _, ⟨rfl, rfl⟩, e, hparse, rfl⟩ := h
  rcases hrefill with ⟨-, hrefill⟩ | ⟨hvalid, rfl⟩
  · obtain ⟨a, null, rfl⟩ := refillEfuseMap_returns hrefill
    exact ⟨a, null, e, hparse, rfl⟩
  · have hvalid : s.efuseMapValid = true := by simpa using hvalid
    rw [hs hvalid]
    exact ⟨s.answers, s.efuseMapNull, e, hparse, by rw [← hvalid]⟩

/-! ## Runs without a failure -/

/-- Every attempt to come succeeds. -/
def Answering (s : Adapter) : Prop := ∀ n, s.answers n = true

/-- The cells from `i` on take the bytes `bs`, where writes are checked. -/
def CellsTake (s : Adapter) (i : ℕ) (bs : List UInt8) : Prop :=
  s.efuseAutoCheckEn = true → ∀ p ∈ addressed i bs, s.burn p.1 (s.cells p.1) p.2 = p.2

/-- The efuse from `i` on is as it was, and it goes on answering. -/
structure KeptFrom (i : ℕ) (s s' : Adapter) : Prop where
  answering : Answering s'
  burn : s'.burn = s.burn
  autoCheckEn : s'.efuseAutoCheckEn = s.efuseAutoCheckEn
  cells : ∀ j, i ≤ j → s'.cells j = s.cells j

theorem CellsTake.later {i' : ℕ} (h : CellsTake s i bs) (hkept : KeptFrom i' s s') (hle : i' ≤ i) :
    CellsTake s' i bs := by
  intro hcheck p hp
  rw [hkept.burn, hkept.cells _ (hle.trans (mem_addressed hp).1)]
  exact h (hkept.autoCheckEn ▸ hcheck) p hp

theorem cellsTake_append :
    CellsTake s i (bs ++ cs) ↔ CellsTake s i bs ∧ CellsTake s (i + bs.length) cs := by
  unfold CellsTake
  rw [addressed_append, ← imp_and]
  exact imp_congr_right fun _ => List.forall_mem_append

theorem cellsTake_of_not_check (h : s.efuseAutoCheckEn = false) : CellsTake s i bs := by
  intro hcheck
  rw [h] at hcheck
  cases hcheck

theorem Answering.shift (h : Answering s) :
    Answering { s with answers := fun n => s.answers (n + 1) } :=
  fun n => h (n + 1)

theorem expect_succeeds (h : Answering s) (e : RetStatus) :
    Returns (expect e) s () { s with answers := fun n => s.answers (n + 1) } :=
  expect_returns.mpr ⟨h 0, rfl⟩

theorem readHwEfuse_succeeds (h : Answering s) (offset size : ℕ) :
    ∃ map a, Returns (readHwEfuse offset size) s map { s with answers := a } ∧ ∀ n, a n = true := by
  induction size with
  | zero => exact ⟨blank, s.answers, returns_pure.mpr ⟨rfl, rfl⟩, h⟩
  | succ size ih =>
    obtain ⟨map, a, hread, ha⟩ := ih
    refine ⟨Function.update map size (s.cells (offset + size)), fun n => a (n + 1), ?_,
      fun n => ha (n + 1)⟩
    simp only [readHwEfuse, returns_bind, returns_look, returns_pure]
    exact ⟨map, _, hread, _, _, expect_succeeds (s := { s with answers := a }) ha _, _, _,
      ⟨rfl, rfl⟩,
      rfl, rfl⟩

theorem writeHwEfuse_succeeds (h : Answering s) (ht : CellsTake s offset [value]) :
    ∃ s', Returns (writeHwEfuse offset value) s () s' ∧ KeptFrom (offset + 1) s s' := by
  have hcells : ∀ j, offset + 1 ≤ j →
      Function.update s.cells offset (s.burn offset (s.cells offset) value) j = s.cells j :=
    fun j hj => Function.update_of_ne (by omega) _ _
  have hmid : Answering { s with
      efuseMapValid := false
      cells := Function.update s.cells offset (s.burn offset (s.cells offset) value)
      burned := s.burned ++ [(offset, value)] } := h
  simp only [writeHwEfuse, returns_bind, returns_modify, returns_look, returns_onlyIf,
    returns_failIf]
  by_cases hcheck : s.efuseAutoCheckEn = true
  · -- the byte that is read back is the one that was written
    obtain ⟨map, a, hread, ha⟩ := readHwEfuse_succeeds hmid.shift offset 1
    obtain ⟨-, hmap⟩ := readHwEfuse_returns hread
    have hvalue : map 0 = value := by
      rw [hmap 0 Nat.one_pos]
      show Function.update s.cells offset _ (offset + 0) = value
      rw [Nat.add_zero, Function.update_self]
      exact ht hcheck (offset, value) (List.mem_singleton.mpr rfl)
    exact ⟨_, ⟨⟨⟩, _, rfl, ⟨⟩, _, rfl, _, _, expect_succeeds hmid _, _, _, ⟨rfl, rfl⟩,
      .inl ⟨hcheck, map, _, hread, not_not.mpr hvalue, rfl⟩⟩, ha, rfl, rfl, hcells⟩
  · exact ⟨_, ⟨⟨⟩, _, rfl, ⟨⟩, _, rfl, _, _, expect_succeeds hmid _, _, _, ⟨rfl, rfl⟩,
      .inr ⟨hcheck, rfl⟩⟩, hmid.shift, rfl, rfl, hcells⟩

theorem writeBytes_succeeds (h : Answering s) (ht : CellsTake s i bs) :
    ∃ s', Returns (writeBytes i bs) s () s' ∧ KeptFrom (i + bs.length) s s' := by
  induction bs generalizing s i with
  | nil => exact ⟨s, returns_pure.mpr ⟨rfl, rfl⟩, h, rfl, rfl, fun _ _ => rfl⟩
  | cons b bs ih =>
    obtain ⟨hb, hbs⟩ := (cellsTake_append : _ ↔ CellsTake s i [b] ∧ _).mp ht
    obtain ⟨t, hfirst, hkept⟩ := writeHwEfuse_succeeds h hb
    obtain ⟨s', hrest, hkept'⟩ := ih (i := i + 1) hkept.answering (hbs.later hkept le_rfl)
    refine ⟨s', returns_bind.mpr ⟨(), t, hfirst, hrest⟩, hkept'.answering,
      hkept'.burn.trans hkept.burn, hkept'.autoCheckEn.trans hkept.autoCheckEn, fun j hj => ?_⟩
    rw [List.length_cons] at hj
    rw [hkept'.cells j (by omega), hkept.cells j (by omega)]

theorem programEfuse_succeeds {info : PgEfuseInfo} {updatedMask : Map} (h : Answering s)
    (ht : CellsTake s s.efuseEnd (programBytes info updatedMask)) :
    ∃ s', Returns (programEfuse info updatedMask) s () s' := by
  unfold programEfuse
  unfold programBytes at ht
  generalize strides 8 info.efuseMapSize = l at ht ⊢
  induction l generalizing s with
  | nil => exact ⟨s, returns_pure.mpr ⟨rfl, rfl⟩⟩
  | cons i l ih =>
    rw [List.flatMap_cons, cellsTake_append] at ht
    rw [List.forM_cons]
    obtain ⟨t, hfirst, hgood, hrest⟩ : ∃ t, Returns (onlyIf (pgPreWordEn updatedMask i > 0)
        (procPgEfuse info (pgPreWordEn updatedMask i ^^^ 0x0F) (pgPreWordEn updatedMask i) i))
        s () t ∧ Answering t ∧
          CellsTake t t.efuseEnd (l.flatMap (blockBytes info updatedMask)) := by
      unfold blockBytes at ht
      by_cases hpos : pgPreWordEn updatedMask i > 0
      · rw [if_pos hpos] at ht
        obtain ⟨t, hwrite, hkept⟩ := writeBytes_succeeds h ht.1
        have hpg : Returns (procPgEfuse info (pgPreWordEn updatedMask i ^^^ 0x0F)
            (pgPreWordEn updatedMask i) i) s () { t with efuseEnd := s.efuseEnd +
              (pgEntryBytes info (pgPreWordEn updatedMask i ^^^ 0x0F)
                (pgPreWordEn updatedMask i) i).length } := by
          simp only [procPgEfuse, returns_bind, returns_look, returns_modify]
          exact ⟨_, _, ⟨rfl, rfl⟩, _, t, hwrite, rfl⟩
        exact ⟨_, returns_onlyIf.mpr (.inl ⟨hpos, hpg⟩), hkept.answering,
          ht.2.later ⟨hkept.answering, hkept.burn, hkept.autoCheckEn, hkept.cells⟩ le_rfl⟩
      · rw [if_neg hpos] at ht
        exact ⟨s, returns_onlyIf.mpr (.inr ⟨hpos, rfl⟩), h, ht.2⟩
    obtain ⟨s', hlast⟩ := ih hgood hrest
    exact ⟨s', returns_bind.mpr ⟨(), t, hfirst, hlast⟩⟩

def currentMap (s : Adapter) : Map := if s.efuseMapValid = true then s.efuseMap else physMap s

theorem refillEfuseMap_succeeds (h : Answering s) :
    ∃ a null, Returns refillEfuseMap s () { s with
      answers := a, efuseMapNull := null, efuseMap := physMap s, efuseMapValid := true } ∧
      ∀ n, a n = true := by
  obtain ⟨map, a, hread, ha⟩ := readHwEfuse_succeeds h.shift 0 efuseSize
  obtain ⟨s', hret, hgood⟩ : ∃ s', Returns refillEfuseMap s () s' ∧ Answering s' := by
    simp only [refillEfuseMap, returns_bind, returns_look, returns_onlyIf, returns_modify]
    by_cases hnull : s.efuseMapNull = true
    · exact ⟨_, ⟨(), _, expect_succeeds h _, map, _, hread, _, _, ⟨rfl, rfl⟩, (), _,
          .inl ⟨hnull, (), _, expect_returns.mpr ⟨ha 0, rfl⟩, rfl⟩, rfl⟩, fun n => ha (n + 1)⟩
    · exact ⟨_, ⟨(), _, expect_succeeds h _, map, _, hread, _, _, ⟨rfl, rfl⟩, (), _,
        .inr ⟨hnull, rfl⟩, rfl⟩, ha⟩
  obtain ⟨a', null, rfl⟩ := refillEfuseMap_returns hret
  exact ⟨a', null, hret, hgood⟩

theorem readLogEfuseMap_succeeds {e : ℕ} (h : Answering s)
    (hparse : eepromParse s.btSwitch (currentMap s) = some (map, e)) :
    ∃ a null, Returns readLogEfuseMap s map { s with
      answers := a, efuseMapNull := null, efuseMap := currentMap s, efuseMapValid := true,
      efuseEnd := e } ∧ ∀ n, a n = true := by
  simp only [readLogEfuseMap, returns_bind, returns_look, returns_onlyIf, eepromParser_returns]
  unfold currentMap at hparse ⊢
  by_cases hvalid : s.efuseMapValid = true
  · rw [if_pos hvalid] at hparse ⊢
    refine ⟨s.answers, s.efuseMapNull, ⟨_, _, ⟨rfl, rfl⟩, (), s, .inr ⟨by simp [hvalid], rfl⟩, _, _,
      ⟨rfl, rfl⟩, e, hparse, ?_⟩, h⟩
    rw [← hvalid]
  · rw [if_neg hvalid] at hparse ⊢
    obtain ⟨a, null, hrefill, ha⟩ := refillEfuseMap_succeeds h
    exact ⟨a, null, ⟨_, _, ⟨rfl, rfl⟩, (), _, .inl ⟨by simpa using hvalid, hrefill⟩, _, _,
      ⟨rfl, rfl⟩, e, hparse, rfl⟩, ha⟩

end Rtl88x2eu.Efuse
