import Mathlib.Data.Set.Finite.Lemmas
import Rtl88x2eu.Mesh.PathTable

/-!
# The gates of a mesh

`rtw_mesh_path_add_gate` and `rtw_mesh_gate_del` keep the list of the paths that lead to gates,
their number, the gate with the largest address and whether that address is larger than the one of
the station. A station that announces itself as a gate is the primary one if it is not.

Gates are paths of the mesh table; a path of the proxy table never becomes one.

## Main definitions

* `rtwMacaddrIsLarger`, `Gates`
* `Gates.addGate`, `Gates.gateDel`, `Gates.pathDel`, `Gates.expire`: the operations
* `GatesOk`, `GateStation`

## Main results

* `gates_law`: they agree after all runs, and what this says of a group of gates
-/

namespace Rtl88x2eu.Mesh

open MeshInfo

/-- `be32_to_cpu` of the first four octets. -/
def macHigh (a : MacAddr) : ℕ :=
  ((a.b0.toNat * 256 + a.b1.toNat) * 256 + a.b2.toNat) * 256 + a.b3.toNat

/-- `be16_to_cpu` of the last two octets. -/
def macLow (a : MacAddr) : ℕ := a.b4.toNat * 256 + a.b5.toNat

/-- The order of addresses. -/
def rtwMacaddrIsLarger (a b : MacAddr) : Bool :=
  if macHigh b < macHigh a then true
  else if macHigh a < macHigh b then false
  else macLow b < macLow a

/-! ## The table with its gates -/

/-- The path table with `num_gates`, `max_addr_gate` and `max_addr_gate_is_larger_than_self`. A path
stands for the address that it leads to. -/
structure Gates where
  info : MeshInfo
  numGates : ℤ := 0
  maxAddrGate : Option MacAddr := none
  maxAddrGateIsLargerThanSelf : Bool := false

/-- A round of the loop over the known gates. -/
def largerGate (maxAddrGate : Option MacAddr) (gate : MacAddr) : Option MacAddr :=
  if maxAddrGate.all fun m => rtwMacaddrIsLarger gate m then some gate else maxAddrGate

def expired (w : MeshInfo) (p : Mpath) : Bool :=
  !p.flags.resolving && !p.flags.fixed && p.expTime + w.cfg.pathExpire < w.now

namespace Gates

variable (s : Gates) (dst : MacAddr)

def addGate : Gates :=
  let info := rtwMeshPathAddGate s.info dst
  match s.info.paths dst with
  | none => s
  | some p =>
    if p.isGate then { s with info }
    else if s.numGates = 0 ∨ s.maxAddrGate.any (rtwMacaddrIsLarger dst) then
      { info
        numGates := s.numGates + 1
        maxAddrGate := some dst
        maxAddrGateIsLargerThanSelf := rtwMacaddrIsLarger dst s.info.cfg.macAddr }
    else { s with info, numGates := s.numGates + 1 }

def gateDel : Gates :=
  let info := rtwMeshGateDel s.info dst
  match s.info.paths dst with
  | none => s
  | some p =>
    if !p.isGate then s
    else if s.numGates = 1 then { info, numGates := s.numGates - 1 }
    else if s.maxAddrGate = some dst then
      let maxAddrGate := info.knownGates.foldl largerGate none
      { info
        numGates := s.numGates - 1
        maxAddrGate
        maxAddrGateIsLargerThanSelf :=
          maxAddrGate.any fun m => rtwMacaddrIsLarger m s.info.cfg.macAddr }
    else { s with info, numGates := s.numGates - 1 }

def pathDel : Gates := { s.gateDel dst with info := rtwMeshPathDel' s.info dst }

def flush (p : Mpath → Bool) (walk : List MacAddr) : Gates :=
  walk.foldl (fun s dst => if (s.info.paths dst).any p then s.pathDel dst else s) s

def expirePath (malloc : MacAddr → Bool) : Gates :=
  match s.info.paths dst with
  | none => s
  | some p =>
    if expired s.info p then s.pathDel dst
    else if p.isGate && p.gateTimeout < s.info.now && p.gateAsked then s.gateDel dst
    else { s with info := Mesh.expirePath malloc s.info dst }

def expire (walk : List MacAddr) (malloc : MacAddr → Bool) : Gates :=
  walk.foldl (fun s dst => s.expirePath dst malloc) s

end Gates

/-- The operations on the table, and what others do to a path and to the clock. -/
inductive GateEvent
  | pathAdd (dst : MacAddr) (malloc : Bool)
  | addGate (dst : MacAddr)
  | gateDel (dst : MacAddr)
  | pathDel (dst : MacAddr)
  | flush (p : Mpath → Bool) (walk : List MacAddr)
  | expire (walk : List MacAddr) (malloc : MacAddr → Bool)
  | change (dst : MacAddr) (f : Mpath → Mpath)
  | elapse (ticks : ℕ)

def Gates.step (s : Gates) : GateEvent → Gates
  | .pathAdd dst malloc => { s with info := (rtwMeshPathAdd s.info dst malloc).2 }
  | .addGate dst => s.addGate dst
  | .gateDel dst => s.gateDel dst
  | .pathDel dst => s.pathDel dst
  | .flush p walk => s.flush p walk
  | .expire walk malloc => s.expire walk malloc
  | .change dst f => { s with info := s.info.mapPath dst fun p => { f p with isGate := p.isGate } }
  | .elapse ticks => { s with info := { s.info with now := s.info.now + ticks } }

/-- A station and the operations of its table. -/
structure GateStation where
  cfg : MeshCfg
  dot11MeshGateAnnouncementProtocol : Bool
  events : List GateEvent

namespace GateStation

variable (a : GateStation)

def addr : MacAddr := a.cfg.macAddr

def gates : Gates := a.events.foldl Gates.step { info := { cfg := a.cfg } }

def isPrimaryGate : Bool :=
  a.dot11MeshGateAnnouncementProtocol && !a.gates.maxAddrGateIsLargerThanSelf

end GateStation

theorem macLow_lt (a : MacAddr) : macLow a < 65536 := by
  have h4 := a.b4.toNat_lt
  have h5 := a.b5.toNat_lt
  unfold macLow
  omega

/-- The octets of an address, as a number. -/
def macValue (a : MacAddr) : ℕ := macHigh a * 65536 + macLow a

theorem rtwMacaddrIsLarger_iff {a b : MacAddr} :
    rtwMacaddrIsLarger a b ↔ macValue b < macValue a := by
  have ha := macLow_lt a
  have hb := macLow_lt b
  unfold rtwMacaddrIsLarger macValue
  split_ifs with hgt hlt
  · exact iff_of_true rfl (by omega)
  · exact iff_of_false not_false (by omega)
  · rw [decide_eq_true_iff]
    omega

theorem macValue_injective : Function.Injective macValue := by
  rintro ⟨a0, a1, a2, a3, a4, a5⟩ ⟨b0, b1, b2, b3, b4, b5⟩ h
  have := a0.toNat_lt
  have := a1.toNat_lt
  have := a2.toNat_lt
  have := a3.toNat_lt
  have := a4.toNat_lt
  have := a5.toNat_lt
  have := b0.toNat_lt
  have := b1.toNat_lt
  have := b2.toNat_lt
  have := b3.toNat_lt
  have := b4.toNat_lt
  have := b5.toNat_lt
  simp only [macValue, macHigh, macLow] at h
  simp only [MacAddr.mk.injEq, ← UInt8.toNat_inj]
  omega

def LargestOf (m : Option MacAddr) (l : List MacAddr) : Prop :=
  match m with
  | none => l = []
  | some g => g ∈ l ∧ ∀ h ∈ l, macValue h ≤ macValue g

theorem LargestOf.cons_of_larger {m : Option MacAddr} {l : List MacAddr} {d : MacAddr}
    (h : LargestOf m l) (hd : ∀ g, m = some g → macValue g < macValue d) :
    LargestOf (some d) (d :: l) := by
  refine ⟨List.mem_cons_self, fun x hx => ?_⟩
  rcases List.mem_cons.1 hx with rfl | hx
  · exact Nat.le_refl _
  · cases m with
    | none => exact absurd (h ▸ hx) List.not_mem_nil
    | some g => exact (h.2 x hx).trans (hd g rfl).le

theorem LargestOf.cons_of_le {l : List MacAddr} {d g : MacAddr} (h : LargestOf (some g) l)
    (hd : macValue d ≤ macValue g) : LargestOf (some g) (d :: l) := by
  refine ⟨List.mem_cons_of_mem _ h.1, fun x hx => ?_⟩
  rcases List.mem_cons.1 hx with rfl | hx
  · exact hd
  · exact h.2 x hx

theorem LargestOf.perm {m : Option MacAddr} {l l' : List MacAddr} (h : LargestOf m l)
    (hmem : ∀ x, x ∈ l' ↔ x ∈ l) : LargestOf m l' := by
  cases m with
  | none => exact List.eq_nil_iff_forall_not_mem.2 fun x hx => List.not_mem_nil (h ▸ (hmem x).1 hx)
  | some g => exact ⟨(hmem g).2 h.1, fun x hx => h.2 x ((hmem x).1 hx)⟩

theorem largestOf_largerGate {m : Option MacAddr} {l : List MacAddr} (h : LargestOf m l)
    (d : MacAddr) : LargestOf (largerGate m d) (d :: l) := by
  unfold largerGate
  split_ifs with hall
  · refine h.cons_of_larger fun g hg => ?_
    rw [hg, Option.all_some] at hall
    exact rtwMacaddrIsLarger_iff.1 hall
  · cases m with
    | none => exact absurd rfl hall
    | some g => exact h.cons_of_le (Nat.le_of_not_lt fun hlt => hall (rtwMacaddrIsLarger_iff.2 hlt))

/-- **The loop over the known gates finds the largest one.** -/
theorem largestOf_foldl (l : List MacAddr) : LargestOf (l.foldl largerGate none) l := by
  have hloop : ∀ seen m, LargestOf m seen → LargestOf (l.foldl largerGate m) (l ++ seen) := by
    induction l with
    | nil => exact fun _ _ h => h
    | cons d l ih =>
      intro seen m h
      refine (ih (d :: seen) _ (largestOf_largerGate h d)).perm fun x => ?_
      simp only [List.cons_append, List.mem_cons, List.mem_append]
      tauto
  have hl := hloop [] none rfl
  rwa [List.append_nil] at hl

theorem LargestOf.erase {m : Option MacAddr} {l : List MacAddr} {d : MacAddr} (h : LargestOf m l)
    (hd : d ∈ l) (hne : m ≠ some d) : LargestOf m (l.erase d) := by
  cases m with
  | none => exact absurd (h ▸ hd) List.not_mem_nil
  | some g =>
    have hgd : g ≠ d := fun heq => hne (congrArg some heq)
    exact ⟨(List.mem_erase_of_ne hgd).2 h.1, fun x hx => h.2 x (List.mem_of_mem_erase hx)⟩

/-! ## What the operations do to the gates -/

def gateAt (w : MeshInfo) (dst : MacAddr) : Bool := (w.paths dst).any (·.isGate)

structure SameGates (w w' : MeshInfo) : Prop where
  gate : ∀ d, gateAt w' d = gateAt w d
  known : w'.knownGates = w.knownGates
  addr : w'.cfg.macAddr = w.cfg.macAddr

section Operations

variable {w w' : MeshInfo} {dst : MacAddr} {p q : Mpath}

theorem SameGates.refl (w : MeshInfo) : SameGates w w := ⟨fun _ => rfl, rfl, rfl⟩

theorem gateAt_setPath (w : MeshInfo) (dst : MacAddr) (p : Option Mpath) (d : MacAddr) :
    gateAt (w.setPath dst p) d = if d = dst then p.any (·.isGate) else gateAt w d := by
  unfold gateAt setPath
  by_cases hd : d = dst
  · rw [if_pos hd, hd]
    exact congrArg (Option.any _) (Function.update_self _ _ _)
  · rw [if_neg hd]
    exact congrArg (Option.any _) (Function.update_of_ne hd _ _)

theorem sameGates_setPath {o : Option Mpath} (h : o.any (·.isGate) = gateAt w dst) :
    SameGates w (w.setPath dst o) where
  gate d := by
    rw [gateAt_setPath]
    split_ifs with hd
    · rw [h, hd]
    · rfl
  known := rfl
  addr := rfl

theorem sameGates_mapPath {f : Mpath → Mpath} (hf : ∀ p, (f p).isGate = p.isGate) :
    SameGates w (w.mapPath dst f) := by
  refine sameGates_setPath ?_
  rw [gateAt]
  cases w.paths dst with
  | none => rfl
  | some p => exact hf p

theorem SameGates.trans {w'' : MeshInfo} (h : SameGates w w') (h' : SameGates w' w'') :
    SameGates w w'' where
  gate d := (h'.gate d).trans (h.gate d)
  known := h'.known.trans h.known
  addr := h'.addr.trans h.addr

theorem sameGates_pathAdd (w : MeshInfo) (dst : MacAddr) (malloc : Bool) :
    SameGates w (rtwMeshPathAdd w dst malloc).2 := by
  unfold rtwMeshPathAdd
  split_ifs
  · exact .refl w
  · exact .refl w
  · exact ⟨fun _ => rfl, rfl, rfl⟩
  · have hcount : SameGates w { w with mpaths := w.mpaths + 1 } := ⟨fun _ => rfl, rfl, rfl⟩
    dsimp only
    cases hp : w.paths dst with
    | some p => exact hcount
    | none =>
      refine hcount.trans (sameGates_setPath (o := some { dst := dst, expTime := w.now }) ?_)
      rw [gateAt, hp]
      rfl

theorem sameGates_queuePreq (w : MeshInfo) (dst : MacAddr) (start refresh malloc : Bool) :
    SameGates w (rtwMeshQueuePreq w dst start refresh malloc) := by
  unfold rtwMeshQueuePreq
  split_ifs
  · exact .refl w
  · cases hp : w.paths dst with
    | none => exact .refl w
    | some p =>
      dsimp only
      split_ifs
      · exact .refl w
      · refine SameGates.trans (@sameGates_setPath w dst (some _) ?_)
          ⟨fun _ => rfl, rfl, rfl⟩
        rw [gateAt, hp]
        rfl

/-- The path is a gate of the list now, the first one. -/
structure GateAdded (dst : MacAddr) (w w' : MeshInfo) : Prop where
  gate : ∀ d, gateAt w' d ↔ d = dst ∨ gateAt w d
  known : w'.knownGates = dst :: w.knownGates
  addr : w'.cfg.macAddr = w.cfg.macAddr

/-- The path is no gate of the list any more. -/
structure GateRemoved (dst : MacAddr) (w w' : MeshInfo) : Prop where
  gate : ∀ d, gateAt w' d ↔ d ≠ dst ∧ gateAt w d
  known : w'.knownGates = w.knownGates.erase dst
  addr : w'.cfg.macAddr = w.cfg.macAddr

theorem GateRemoved.same {w'' : MeshInfo} (h : GateRemoved dst w w') (h' : SameGates w' w'') :
    GateRemoved dst w w'' where
  gate d := by rw [h'.gate, h.gate]
  known := h'.known.trans h.known
  addr := h'.addr.trans h.addr

theorem addGate_gates (hp : w.paths dst = some p) (hgate : ¬p.isGate) :
    GateAdded dst w (rtwMeshPathAddGate w dst) := by
  simp only [rtwMeshPathAddGate, hp, if_neg hgate]
  refine ⟨fun d => ?_, rfl, rfl⟩
  refine Iff.trans (Eq.to_iff (congrArg (· = true) (gateAt_setPath w dst _ d))) ?_
  split_ifs with hd
  · exact iff_of_true rfl (.inl hd)
  · exact (or_iff_right hd).symm

theorem sameGates_addGate (hp : w.paths dst = some p) (hgate : p.isGate) :
    SameGates w (rtwMeshPathAddGate w dst) := by
  simp only [rtwMeshPathAddGate, hp, if_pos hgate]
  refine sameGates_setPath ?_
  rw [gateAt, hp]
  rfl

theorem gateDel_gates (hp : w.paths dst = some p) (hgate : p.isGate) :
    GateRemoved dst w (rtwMeshGateDel w dst) := by
  simp only [rtwMeshGateDel, hp, if_pos hgate]
  refine ⟨fun d => ?_, rfl, rfl⟩
  refine Iff.trans (Eq.to_iff (congrArg (· = true) (gateAt_setPath w dst _ d))) ?_
  split_ifs with hd
  · exact iff_of_false Bool.false_ne_true fun h => h.1 hd
  · exact (and_iff_right hd).symm

theorem gateDel_of_not_gate (hgate : gateAt w dst = false) : rtwMeshGateDel w dst = w := by
  unfold rtwMeshGateDel
  cases hp : w.paths dst with
  | none => rfl
  | some p =>
    rw [gateAt, hp] at hgate
    exact if_neg (ne_true_of_eq_false hgate)

theorem exists_of_gateAt (h : gateAt w dst) : ∃ p, w.paths dst = some p ∧ p.isGate = true := by
  unfold gateAt at h
  cases hp : w.paths dst with
  | none => exact absurd h (by rw [hp]; exact Bool.false_ne_true)
  | some p => exact ⟨p, rfl, by rwa [hp] at h⟩

theorem gateAt_gateDel (w : MeshInfo) (dst : MacAddr) :
    gateAt (rtwMeshGateDel w dst) dst = false := by
  by_cases hgate : gateAt w dst
  · obtain ⟨p, hp, hpg⟩ := exists_of_gateAt hgate
    exact eq_false_of_ne_true fun h => (((gateDel_gates hp hpg).gate dst).1 h).1 rfl
  · rw [gateDel_of_not_gate (eq_false_of_ne_true hgate)]
    exact eq_false_of_ne_true hgate

theorem sameGates_flushPending (w : MeshInfo) (dst : MacAddr) :
    SameGates w (rtwMeshPathFlushPending w dst) := by
  unfold rtwMeshPathFlushPending
  cases hp : w.paths dst with
  | none => exact .refl w
  | some p =>
    refine SameGates.trans (@sameGates_setPath w dst (some _) ?_)
      ⟨fun _ => rfl, rfl, rfl⟩
    rw [gateAt, hp]
    rfl

theorem sameGates_pathDel (w : MeshInfo) (dst : MacAddr) :
    SameGates (rtwMeshGateDel w dst) (rtwMeshPathDel' w dst) := by
  unfold rtwMeshPathDel'
  cases hp : w.paths dst with
  | none =>
    rw [rtwMeshGateDel, hp]
    exact .refl w
  | some p =>
    have hflush := sameGates_flushPending (rtwMeshGateDel w dst) dst
    refine hflush.trans (SameGates.trans (@sameGates_setPath _ dst none ?_)
      ⟨fun _ => rfl, rfl, rfl⟩)
    rw [hflush.gate, gateAt_gateDel]
    rfl

end Operations

namespace Gates

variable (s : Gates) (dst : MacAddr)

theorem info_gateDel : (s.gateDel dst).info = rtwMeshGateDel s.info dst := by
  unfold gateDel
  cases hp : s.info.paths dst with
  | none =>
    dsimp only
    rw [rtwMeshGateDel, hp]
  | some p =>
    dsimp only
    split_ifs with hgate
    · have hat : gateAt s.info dst = false := by
        rw [gateAt, hp]
        rwa [Bool.not_eq_true'] at hgate
      exact (gateDel_of_not_gate hat).symm
    all_goals rfl

theorem expirePath_of_some {w : MeshInfo} {dst : MacAddr} {p : Mpath} (hp : w.paths dst = some p)
    (malloc : MacAddr → Bool) :
    Mesh.expirePath malloc w dst =
      if expired w p then rtwMeshPathDel' w dst
      else if p.isGate && p.gateTimeout < w.now then
        if p.gateAsked then rtwMeshGateDel w dst
        else
          rtwMeshQueuePreq
            (w.setPath dst (some { p with gateAsked := true, gateTimeout := w.now + p.gateAnnInt }))
            dst true true (malloc dst)
      else w := by
  simp only [Mesh.expirePath, hp]
  rfl

end Gates

/-! ## The invariant -/

/-- List, flags, number and largest gate agree. -/
structure GatesOk (own : MacAddr) (s : Gates) : Prop where
  addr : s.info.cfg.macAddr = own
  nodup : s.info.knownGates.Nodup
  mem : ∀ d, d ∈ s.info.knownGates ↔ gateAt s.info d
  num : s.numGates = s.info.knownGates.length
  largest : LargestOf s.maxAddrGate s.info.knownGates
  larger : s.maxAddrGateIsLargerThanSelf = s.maxAddrGate.any fun m => rtwMacaddrIsLarger m own

namespace GatesOk

variable {own : MacAddr} {s : Gates} {dst : MacAddr}

/-- What does not change the gates keeps the invariant. -/
theorem same (h : GatesOk own s) {info : MeshInfo} (hinfo : SameGates s.info info) :
    GatesOk own { s with info } where
  addr := hinfo.addr.trans h.addr
  nodup := hinfo.known ▸ h.nodup
  mem d := by
    show d ∈ info.knownGates ↔ gateAt info d
    rw [hinfo.known, hinfo.gate]
    exact h.mem d
  num := hinfo.known ▸ h.num
  largest := hinfo.known ▸ h.largest
  larger := h.larger

theorem numGates_eq_zero_iff (h : GatesOk own s) : s.numGates = 0 ↔ s.maxAddrGate = none := by
  have hl := h.largest
  rw [h.num, Int.natCast_eq_zero, List.length_eq_zero_iff]
  cases hm : s.maxAddrGate with
  | none => exact iff_of_true (by rwa [hm] at hl) rfl
  | some g =>
    rw [hm] at hl
    exact iff_of_false (List.ne_nil_of_mem hl.1) (Option.some_ne_none g)

theorem push_larger (h : GatesOk own s) {info : MeshInfo} (hinfo : GateAdded dst s.info info)
    (hnew : ¬gateAt s.info dst) (hlt : ∀ g, s.maxAddrGate = some g → macValue g < macValue dst) :
    GatesOk own ⟨info, s.numGates + 1, some dst, rtwMacaddrIsLarger dst s.info.cfg.macAddr⟩ where
  addr := hinfo.addr.trans h.addr
  nodup := hinfo.known ▸ List.nodup_cons.2 ⟨mt (h.mem dst).1 hnew, h.nodup⟩
  mem d := by rw [hinfo.known, hinfo.gate, List.mem_cons, h.mem]
  num := by
    show s.numGates + 1 = (info.knownGates.length : ℤ)
    rw [hinfo.known, List.length_cons, h.num]
    rfl
  largest := hinfo.known ▸ h.largest.cons_of_larger hlt
  larger := by rw [h.addr, Option.any_some]

theorem push_le (h : GatesOk own s) {info : MeshInfo} (hinfo : GateAdded dst s.info info)
    (hnew : ¬gateAt s.info dst) {g : MacAddr} (hg : s.maxAddrGate = some g)
    (hle : macValue dst ≤ macValue g) :
    GatesOk own { s with info, numGates := s.numGates + 1 } where
  addr := hinfo.addr.trans h.addr
  nodup := hinfo.known ▸ List.nodup_cons.2 ⟨mt (h.mem dst).1 hnew, h.nodup⟩
  mem d := by rw [hinfo.known, hinfo.gate, List.mem_cons, h.mem]
  num := by
    show s.numGates + 1 = (info.knownGates.length : ℤ)
    rw [hinfo.known, List.length_cons, h.num]
    rfl
  largest := by
    have hl := h.largest
    rw [hg] at hl
    simp only [hinfo.known, hg]
    exact hl.cons_of_le hle
  larger := h.larger

theorem not_gateAt {w : MeshInfo} {p : Mpath} (hp : w.paths dst = some p) (hgate : ¬p.isGate) :
    ¬gateAt w dst := by
  rwa [gateAt, hp]

theorem addGate (h : GatesOk own s) : GatesOk own (s.addGate dst) := by
  unfold Gates.addGate
  cases hp : s.info.paths dst with
  | none => exact h
  | some p =>
    dsimp only
    split_ifs with hgate hmax
    · exact h.same (sameGates_addGate hp hgate)
    · refine h.push_larger (addGate_gates hp hgate) (not_gateAt hp hgate) fun g hg => ?_
      rcases hmax with hzero | hlarger
      · exact absurd (hg.symm.trans (h.numGates_eq_zero_iff.1 hzero)) (Option.some_ne_none g)
      · rw [hg] at hlarger
        exact rtwMacaddrIsLarger_iff.1 hlarger
    · obtain ⟨hne, hnot⟩ := not_or.1 hmax
      obtain ⟨g, hg⟩ := Option.ne_none_iff_exists'.1 (mt h.numGates_eq_zero_iff.2 hne)
      refine h.push_le (addGate_gates hp hgate) (not_gateAt hp hgate) hg ?_
      rw [hg, Option.any_some, rtwMacaddrIsLarger_iff] at hnot
      exact Nat.le_of_not_lt hnot

/-- The list without a gate; the largest gate is found anew, or stays. -/
theorem remove (h : GatesOk own s) {info : MeshInfo} (hinfo : GateRemoved dst s.info info)
    (hold : gateAt s.info dst) {m : Option MacAddr}
    (hm : LargestOf m (s.info.knownGates.erase dst)) :
    GatesOk own
      ⟨info, s.numGates - 1, m, m.any fun m => rtwMacaddrIsLarger m s.info.cfg.macAddr⟩ where
  addr := hinfo.addr.trans h.addr
  nodup := hinfo.known ▸ h.nodup.erase dst
  mem d := by rw [hinfo.known, hinfo.gate, h.nodup.mem_erase_iff, h.mem]
  num := by
    have hmem := (h.mem dst).2 hold
    have hpos := List.length_pos_of_mem hmem
    show s.numGates - 1 = (info.knownGates.length : ℤ)
    rw [hinfo.known, List.length_erase_of_mem hmem, h.num]
    omega
  largest := hinfo.known ▸ hm
  larger := by rw [h.addr]

/-- What `rtw_mesh_gate_del` does, for any change of the table that takes the gate off. -/
theorem gateDel_info (h : GatesOk own s) {info : MeshInfo}
    (hgate : gateAt s.info dst → GateRemoved dst s.info info)
    (hsame : ¬gateAt s.info dst → SameGates s.info info) :
    GatesOk own { s.gateDel dst with info } := by
  unfold Gates.gateDel
  cases hp : s.info.paths dst with
  | none =>
    refine h.same (hsame ?_)
    rw [gateAt, hp]
    exact Bool.false_ne_true
  | some p =>
    by_cases hpg : p.isGate
    · have hold : gateAt s.info dst := by rwa [gateAt, hp]
      have hremoved := hgate hold
      have hmem := (h.mem dst).2 hold
      simp only [hpg, Bool.not_true, if_neg Bool.false_ne_true]
      split_ifs with hone hmax
      · refine h.remove hremoved hold (m := none) (List.eq_nil_of_length_eq_zero ?_)
        have hlen : s.info.knownGates.length = 1 := by
          have hnum := h.num
          omega
        rw [List.length_erase_of_mem hmem, hlen]
      · refine h.remove hremoved hold ?_
        rw [(gateDel_gates hp hpg).known]
        exact largestOf_foldl _
      · have hkeep := h.remove hremoved hold (h.largest.erase hmem hmax)
        rwa [h.addr, ← h.larger] at hkeep
    · simp only [eq_false_of_ne_true hpg, Bool.not_false, if_pos]
      exact h.same (hsame (not_gateAt hp hpg))

theorem gateDel (h : GatesOk own s) : GatesOk own (s.gateDel dst) := by
  have hdel := @gateDel_info _ s dst h (rtwMeshGateDel s.info dst)
    (fun hold => by
      obtain ⟨p, hp, hpg⟩ := exists_of_gateAt hold
      exact gateDel_gates hp hpg)
    (fun hold => by
      rw [gateDel_of_not_gate (eq_false_of_ne_true hold)]
      exact .refl _)
  rwa [← Gates.info_gateDel] at hdel

theorem pathDel (h : GatesOk own s) : GatesOk own (s.pathDel dst) := by
  have hdel := sameGates_pathDel s.info dst
  refine h.gateDel_info (fun hold => ?_) fun hold => ?_
  · obtain ⟨p, hp, hpg⟩ := exists_of_gateAt hold
    exact (gateDel_gates hp hpg).same hdel
  · rwa [gateDel_of_not_gate (eq_false_of_ne_true hold)] at hdel

theorem flush (h : GatesOk own s) (p : Mpath → Bool) (walk : List MacAddr) :
    GatesOk own (s.flush p walk) := by
  unfold Gates.flush
  induction walk generalizing s with
  | nil => exact h
  | cons dst walk ih =>
    refine ih ?_
    dsimp only
    split_ifs
    · exact h.pathDel
    · exact h

theorem expirePath (h : GatesOk own s) (malloc : MacAddr → Bool) :
    GatesOk own (s.expirePath dst malloc) := by
  unfold Gates.expirePath
  cases hp : s.info.paths dst with
  | none => exact h
  | some p =>
    dsimp only
    split_ifs with hexp hgate
    · exact h.pathDel
    · exact h.gateDel
    · refine h.same ?_
      rw [Gates.expirePath_of_some hp, if_neg hexp]
      split_ifs with htimeout hasked
      · exact absurd (Bool.and_eq_true_iff.2 ⟨htimeout, hasked⟩) hgate
      · refine SameGates.trans (sameGates_setPath ?_) (sameGates_queuePreq _ _ _ _ _)
        rw [gateAt, hp]
        rfl
      · exact .refl _

theorem expire (h : GatesOk own s) (walk : List MacAddr) (malloc : MacAddr → Bool) :
    GatesOk own (s.expire walk malloc) := by
  unfold Gates.expire
  induction walk generalizing s with
  | nil => exact h
  | cons dst walk ih => exact ih (h.expirePath malloc)

theorem step (h : GatesOk own s) (e : GateEvent) : GatesOk own (s.step e) := by
  cases e with
  | pathAdd dst malloc => exact h.same (sameGates_pathAdd s.info dst malloc)
  | addGate dst => exact h.addGate
  | gateDel dst => exact h.gateDel
  | pathDel dst => exact h.pathDel
  | flush p walk => exact h.flush p walk
  | expire walk malloc => exact h.expire walk malloc
  | change dst f => exact h.same (sameGates_mapPath fun _ => rfl)
  | elapse ticks => exact h.same ⟨fun _ => rfl, rfl, rfl⟩

theorem run (h : GatesOk own s) (events : List GateEvent) :
    GatesOk own (events.foldl Gates.step s) := by
  induction events generalizing s with
  | nil => exact h
  | cons e events ih => exact ih (h.step e)

end GatesOk

/-! ## Groups of gates -/

namespace GateStation

variable {a b : GateStation}

theorem gates_ok (a : GateStation) : GatesOk a.addr a.gates := by
  have hinit : GatesOk a.addr { info := { cfg := a.cfg } } :=
    ⟨rfl, List.nodup_nil, fun d => iff_of_false List.not_mem_nil Bool.false_ne_true, rfl, rfl, rfl⟩
  exact hinit.run a.events

theorem isPrimaryGate_iff (ha : a.dot11MeshGateAnnouncementProtocol) :
    a.isPrimaryGate ↔ ∀ g ∈ a.gates.info.knownGates, macValue g ≤ macValue a.addr := by
  have hl := a.gates_ok.largest
  rw [isPrimaryGate, ha, Bool.true_and, a.gates_ok.larger, Bool.not_eq_true']
  cases hm : a.gates.maxAddrGate with
  | none =>
    rw [hm] at hl
    refine iff_of_true rfl fun g hg => absurd (hl ▸ hg) List.not_mem_nil
  | some m =>
    rw [hm] at hl
    rw [Option.any_some, ← Bool.not_eq_true, rtwMacaddrIsLarger_iff, Nat.not_lt]
    exact ⟨fun hle g hg => (hl.2 g hg).trans hle, fun h => h m hl.1⟩

end GateStation

/-- The stations announce themselves as gates, have different addresses, and know each other. -/
structure GateGroup (group : List GateStation) : Prop where
  announce : ∀ a ∈ group, a.dot11MeshGateAnnouncementProtocol
  addr : ∀ a ∈ group, ∀ b ∈ group, a.addr = b.addr → a = b
  known : ∀ a ∈ group, ∀ b ∈ group, a ≠ b → b.addr ∈ a.gates.info.knownGates

namespace GateGroup

variable {group : List GateStation} {a b : GateStation}

theorem primary_unique (h : GateGroup group) (ha : a ∈ group) (hb : b ∈ group)
    (hpa : a.isPrimaryGate) (hpb : b.isPrimaryGate) : a = b := by
  by_contra hne
  rw [GateStation.isPrimaryGate_iff (h.announce a ha)] at hpa
  rw [GateStation.isPrimaryGate_iff (h.announce b hb)] at hpb
  have hle := hpa b.addr (h.known a ha b hb hne)
  have hge := hpb a.addr (h.known b hb a ha (Ne.symm hne))
  exact hne (h.addr a ha b hb (macValue_injective (Nat.le_antisymm hge hle)))

theorem exists_primary (h : GateGroup group) (hne : group ≠ [])
    (hothers : ∀ a ∈ group, ∀ g ∈ a.gates.info.knownGates, ∃ b ∈ group, b.addr = g) :
    ∃ a ∈ group, a.isPrimaryGate := by
  obtain ⟨a, ha, hmax⟩ := Set.exists_max_image {a | a ∈ group} (fun a => macValue a.addr)
    group.finite_toSet (List.exists_mem_of_ne_nil group hne)
  refine ⟨a, ha, (GateStation.isPrimaryGate_iff (h.announce a ha)).2 fun g hg => ?_⟩
  obtain ⟨b, hb, rfl⟩ := hothers a ha g hg
  exact hmax b hb

end GateGroup

/-- **After all operations the gates of every station are as they shall be. In a group of gates that
know each other at most one is the primary one, and exactly one if they know no others.** -/
theorem gates_law (group : List GateStation) (hne : group ≠ []) (h : GateGroup group) :
    (∀ a : GateStation, GatesOk a.addr a.gates) ∧
    (∀ a ∈ group, ∀ b ∈ group, a.isPrimaryGate → b.isPrimaryGate → a = b) ∧
    ((∀ a ∈ group, ∀ g ∈ a.gates.info.knownGates, ∃ b ∈ group, b.addr = g) →
      ∃ a ∈ group, a.isPrimaryGate) :=
  ⟨GateStation.gates_ok, fun _ ha _ hb => h.primary_unique ha hb, h.exists_primary hne⟩

def gateThatKnows (own : MacAddr) (known : List MacAddr) : GateStation where
  cfg := { macAddr := own }
  dot11MeshGateAnnouncementProtocol := true
  events := known.flatMap fun g => [.pathAdd g true, .addGate g]

/-- Addresses in their order. -/
def gateAddr (n : UInt8) : MacAddr := ⟨2, 0, 0, 0, 0, n⟩

theorem gateGroup_pair {x y : MacAddr} {l m : List MacAddr} (hne : x ≠ y)
    (hx : y ∈ (gateThatKnows x l).gates.info.knownGates)
    (hy : x ∈ (gateThatKnows y m).gates.info.knownGates) :
    GateGroup [gateThatKnows x l, gateThatKnows y m] := by
  constructor
  · simp [gateThatKnows]
  · intro a ha b hb heq
    rcases List.mem_pair.1 ha with rfl | rfl <;> rcases List.mem_pair.1 hb with rfl | rfl
    · rfl
    · exact absurd heq hne
    · exact absurd heq hne.symm
    · rfl
  · intro a ha b hb hab
    rcases List.mem_pair.1 ha with rfl | rfl <;> rcases List.mem_pair.1 hb with rfl | rfl
    · exact absurd rfl hab
    · exact hx
    · exact hy
    · exact absurd rfl hab

theorem gates_law_pair :
    ∃ a ∈ [gateThatKnows (gateAddr 1) [gateAddr 2], gateThatKnows (gateAddr 2) [gateAddr 1]],
      a.isPrimaryGate := by
  refine (gates_law _ (List.cons_ne_nil _ _) (gateGroup_pair ?_ ?_ ?_)).2.2 ?_ <;> decide

/-- Two gates know each other and a third one with a larger address; neither is the primary one. -/
theorem not_exactly_one_primary :
    ¬∀ group : List GateStation, group ≠ [] → GateGroup group →
      ∃ a ∈ group, a.isPrimaryGate ∧ ∀ b ∈ group, b.isPrimaryGate → b = a := by
  intro h
  obtain ⟨a, ha, hprimary, -⟩ := h [gateThatKnows (gateAddr 1) [gateAddr 2, gateAddr 3],
    gateThatKnows (gateAddr 2) [gateAddr 1, gateAddr 3]] (List.cons_ne_nil _ _)
    (gateGroup_pair (by decide) (by decide) (by decide))
  have hnone : ∀ a ∈ [gateThatKnows (gateAddr 1) [gateAddr 2, gateAddr 3],
      gateThatKnows (gateAddr 2) [gateAddr 1, gateAddr 3]], a.isPrimaryGate = false := by
    simp only [List.forall_mem_cons]
    decide
  rw [hnone a ha] at hprimary
  exact Bool.noConfusion hprimary

end Rtl88x2eu.Mesh
