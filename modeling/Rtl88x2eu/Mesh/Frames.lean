import Rtl88x2eu.Lib.Placement
import Rtl88x2eu.Mesh.Hwmp

/-!
# Frames that wait for a route

A frame for which `rtw_mesh_nexthop_resolve` returned `RTW_RA_RESOLVING` waits in the queue of a
path or for the tasklet, or it went to `rtw_xmit_posthandle` or was freed. The frames of a path that
was given up go to the first gate that is active, without being put back where its queue is full;
between the update of a path and `rtw_mesh_path_tx_pending` an active gate has frames in its queue.

## Main definitions

* `tokens`, `Conserved`
* `HasRoom w dst`, `RoomFor s e`: the condition for a step
* `Shifts`

## Main results

* `Inv.timer`: a path that is given up
* `conserved_iff`: the frames are conserved exactly if every path given up finds room for its frames
-/

namespace Rtl88x2eu.Mesh

open MeshInfo Placement Transition

/-- Where a frame can be. -/
inductive Place
  | path (dst : MacAddr) | tx | posted | freed
deriving DecidableEq

namespace Mpath

def ids (p : Mpath) : List ℕ := p.frameQueue.map (·.id)

end Mpath

namespace MeshInfo

variable (w : MeshInfo) (dst : MacAddr)

/-- The frames of a destination. -/
def ids : List ℕ := (w.paths dst).elim [] (·.ids)

def len : ℕ := (w.paths dst).elim 0 (·.frameQueueLen)

/-- The frames in every place. -/
def tokens : Place → List ℕ
  | .path dst => w.ids dst
  | .tx => w.mpathTxQueue.map (·.id)
  | .posted => w.posted.map (·.id)
  | .freed => w.freed.map (·.id)

end MeshInfo

structure Counted (w : MeshInfo) : Prop where
  len : ∀ dst, w.len dst = (w.ids dst).length
  bound : ∀ dst, w.len dst ≤ rtwMeshFrameQueueLen
  txLen : w.mpathTxQueueLen = w.mpathTxQueue.length

/-- **Every frame is in one place, once**, and the queues are counted. -/
structure Conserved (w : MeshInfo) : Prop where
  place : ∀ id ∈ w.resolving, ∃! p, id ∈ w.tokens p
  once : ∀ p, (w.tokens p).Nodup
  counted : Counted w

/-! ## The condition -/

def isActive (w : MeshInfo) (dst : MacAddr) : Bool := (w.paths dst).any (·.flags.active)

def HasRoom (w : MeshInfo) (dst : MacAddr) : Prop :=
  ∀ gate ∈ w.knownGates.find? (isActive w), gate ≠ dst →
    (w.paths gate).any (·.nextHop.isSome) → w.len gate + w.len dst ≤ rtwMeshFrameQueueLen

instance HasRoom.decidable (w : MeshInfo) (dst : MacAddr) : Decidable (HasRoom w dst) :=
  inferInstanceAs (Decidable (∀ gate ∈ _, _ → _ → _))

def givesUp (w : MeshInfo) (dst : MacAddr) : Bool :=
  (w.paths dst).any fun p =>
    !p.flags.resolved && p.flags.resolving && w.cfg.maxPreqRetries ≤ p.discoveryRetries &&
      !p.isGate && 0 < w.numGates

def givenUp (w : MeshInfo) : MeshSystemEvent → Option MacAddr
  | .op (.timer dst _) => if givesUp w dst then some dst else none
  | _ => none

/-- **The condition**: a path is given up only while there is room for its frames. -/
def RoomFor (s : MeshSystem) (e : MeshSystemEvent) : Prop :=
  ∀ dst ∈ givenUp s.info e, HasRoom s.info dst

instance RoomFor.decidable (s : MeshSystem) (e : MeshSystemEvent) : Decidable (RoomFor s e) :=
  inferInstanceAs (Decidable (∀ dst ∈ givenUp s.info e, HasRoom s.info dst))

/-- The operation loses the frames `lost`, and makes none. -/
structure Shifts (lost : List ℕ) (w w' : MeshInfo) : Prop where
  loses : Loses lost w.tokens w'.tokens
  counted : Counted w → Counted w'
  resolving : w'.resolving = w.resolving
  nextFrame : w'.nextFrame = w.nextFrame
  waiting : ∀ dst, ∀ id ∈ w'.ids dst, ∃ dst', id ∈ w.ids dst'

variable {w w' w'' : MeshInfo} {dst gate : MacAddr} {p q : Mpath} {lost lost' : List ℕ}

theorem Shifts.trans (h : Shifts lost w w') (h' : Shifts lost' w' w'') :
    Shifts (lost ++ lost') w w'' where
  loses := h.loses.trans h'.loses
  counted hw := h'.counted (h.counted hw)
  resolving := h'.resolving.trans h.resolving
  nextFrame := h'.nextFrame.trans h.nextFrame
  waiting dst id hid := by
    obtain ⟨dst', hid'⟩ := h'.waiting dst id hid
    exact h.waiting dst' id hid'

theorem Shifts.trans_nil (h : Shifts [] w w') (h' : Shifts [] w' w'') : Shifts [] w w'' :=
  h.trans h'

/-- What an operation leaves alone. -/
structure SameFrames (w w' : MeshInfo) : Prop where
  ids : ∀ dst, w'.ids dst = w.ids dst
  len : ∀ dst, w'.len dst = w.len dst
  mpathTxQueue : w'.mpathTxQueue = w.mpathTxQueue
  mpathTxQueueLen : w'.mpathTxQueueLen = w.mpathTxQueueLen
  posted : w'.posted = w.posted
  freed : w'.freed = w.freed
  resolving : w'.resolving = w.resolving
  nextFrame : w'.nextFrame = w.nextFrame

theorem SameFrames.shifts (h : SameFrames w w') : Shifts [] w w' where
  loses := by
    refine loses_of_perm fun p => .of_eq ?_
    cases p with
    | path dst => exact h.ids dst
    | tx => exact congrArg (List.map _) h.mpathTxQueue
    | posted => exact congrArg (List.map _) h.posted
    | freed => exact congrArg (List.map _) h.freed
  counted hw := by
    refine ⟨fun dst => ?_, fun dst => ?_, ?_⟩
    · rw [h.len, h.ids, hw.len]
    · rw [h.len]
      exact hw.bound dst
    · rw [h.mpathTxQueueLen, h.mpathTxQueue, hw.txLen]
  resolving := h.resolving
  nextFrame := h.nextFrame
  waiting dst id hid := ⟨dst, h.ids dst ▸ hid⟩

theorem SameFrames.trans (h : SameFrames w w') (h' : SameFrames w' w'') : SameFrames w w'' where
  ids dst := (h'.ids dst).trans (h.ids dst)
  len dst := (h'.len dst).trans (h.len dst)
  mpathTxQueue := h'.mpathTxQueue.trans h.mpathTxQueue
  mpathTxQueueLen := h'.mpathTxQueueLen.trans h.mpathTxQueueLen
  posted := h'.posted.trans h.posted
  freed := h'.freed.trans h.freed
  resolving := h'.resolving.trans h.resolving
  nextFrame := h'.nextFrame.trans h.nextFrame

@[simp] theorem ids_setPath (w : MeshInfo) (dst : MacAddr) (p : Option Mpath) :
    (w.setPath dst p).ids = Function.update w.ids dst (p.elim [] Mpath.ids) := by
  funext d
  by_cases hd : d = dst
  · subst hd
    simp [ids, setPath]
  · simp [ids, setPath, hd]

@[simp] theorem len_setPath (w : MeshInfo) (dst : MacAddr) (p : Option Mpath) :
    (w.setPath dst p).len = Function.update w.len dst (p.elim 0 Mpath.frameQueueLen) := by
  funext d
  by_cases hd : d = dst
  · subst hd
    simp [len, setPath]
  · simp [len, setPath, hd]

theorem ids_of_path (h : w.paths dst = some p) : w.ids dst = p.ids := by
  simp [ids, h]

theorem len_of_path (h : w.paths dst = some p) : w.len dst = p.frameQueueLen := by
  simp [len, h]

theorem sameFrames_setPath (h : w.paths dst = some p) (hids : q.ids = p.ids)
    (hlen : q.frameQueueLen = p.frameQueueLen) : SameFrames w (w.setPath dst (some q)) where
  ids d := by
    rw [ids_setPath]
    refine (congrFun (Function.update_eq_self_iff.mpr ?_) d)
    exact hids.trans (ids_of_path h).symm
  len d := by
    rw [len_setPath]
    refine (congrFun (Function.update_eq_self_iff.mpr ?_) d)
    exact hlen.trans (len_of_path h).symm
  mpathTxQueue := rfl
  mpathTxQueueLen := rfl
  posted := rfl
  freed := rfl
  resolving := rfl
  nextFrame := rfl

theorem sameFrames_of_paths (h : w'.paths = w.paths)
    (hothers : (w'.mpathTxQueue, w'.mpathTxQueueLen, w'.posted, w'.freed, w'.resolving,
      w'.nextFrame) = (w.mpathTxQueue, w.mpathTxQueueLen, w.posted, w.freed, w.resolving,
      w.nextFrame)) : SameFrames w w' := by
  simp only [Prod.mk.injEq] at hothers
  obtain ⟨htx, htxLen, hposted, hfreed, hresolving, hnext⟩ := hothers
  exact ⟨fun d => by simp [ids, h], fun d => by simp [len, h], htx, htxLen, hposted, hfreed,
    hresolving, hnext⟩

theorem SameFrames.refl (w : MeshInfo) : SameFrames w w := sameFrames_of_paths rfl rfl

theorem sameFrames_mapPath {f : Mpath → Mpath}
    (hf : ∀ p, (f p).ids = p.ids ∧ (f p).frameQueueLen = p.frameQueueLen) :
    SameFrames w (w.mapPath dst f) := by
  unfold mapPath
  cases hp : w.paths dst with
  | none =>
    refine sameFrames_of_paths ?_ rfl
    exact Function.update_eq_self_iff.mpr hp.symm
  | some p => exact sameFrames_setPath hp (hf p).1 (hf p).2

/-! ## Operations that leave the frames alone -/

theorem ids_mapFlags (p : Mpath) (f : MpathFlags → MpathFlags) : (p.mapFlags f).ids = p.ids := rfl

theorem sameFrames_lookup (w : MeshInfo) (dst : MacAddr) :
    SameFrames w (rtwMeshPathLookup w dst).2 := by
  refine sameFrames_mapPath fun p => ?_
  split_ifs <;> exact ⟨rfl, rfl⟩

theorem sameFrames_add (w : MeshInfo) (dst : MacAddr) (malloc : Bool) :
    SameFrames w (rtwMeshPathAdd w dst malloc).2 := by
  unfold rtwMeshPathAdd
  dsimp only
  split_ifs
  · exact .refl w
  · exact .refl w
  · exact sameFrames_of_paths rfl rfl
  · split
    · exact sameFrames_of_paths rfl rfl
    next hnone =>
      refine (sameFrames_of_paths rfl rfl : SameFrames w { w with mpaths := w.mpaths + 1 }).trans ?_
      -- a new path has no frames
      refine ⟨fun d => ?_, fun d => ?_, rfl, rfl, rfl, rfl, rfl, rfl⟩
      · rw [ids_setPath]
        exact congrFun (Function.update_eq_self_iff.mpr (by simp [ids, hnone, Mpath.ids])) d
      · rw [len_setPath]
        exact congrFun (Function.update_eq_self_iff.mpr (by simp [len, hnone])) d

theorem sameFrames_addGate (w : MeshInfo) (dst : MacAddr) :
    SameFrames w (rtwMeshPathAddGate w dst) := by
  unfold rtwMeshPathAddGate
  split
  · exact .refl w
  next p hp =>
    dsimp only
    split_ifs
    · exact sameFrames_setPath hp rfl rfl
    · exact (sameFrames_setPath hp (q := { p with isGate := true, gateTimeout := _ }) rfl rfl).trans
        (sameFrames_of_paths rfl rfl)

theorem sameFrames_gateDel (w : MeshInfo) (dst : MacAddr) :
    SameFrames w (rtwMeshGateDel w dst) := by
  unfold rtwMeshGateDel
  split
  · exact .refl w
  next p hp =>
    split_ifs
    · exact (sameFrames_setPath hp (q := { p with isGate := false }) rfl rfl).trans
        (sameFrames_of_paths rfl rfl)
    · exact .refl w

theorem sameFrames_queuePreq (w : MeshInfo) (dst : MacAddr) (start refresh malloc : Bool) :
    SameFrames w (rtwMeshQueuePreq w dst start refresh malloc) := by
  unfold rtwMeshQueuePreq
  split_ifs
  · exact .refl w
  · split
    · exact .refl w
    next p hp =>
      split_ifs
      · exact .refl w
      · have hqueued := sameFrames_setPath hp
          (ids_mapFlags p fun s => { s with reqQueued := true }) rfl
        exact hqueued.trans (sameFrames_of_paths rfl rfl)

theorem sameFrames_setGate (w : MeshInfo) (dst : MacAddr) (gate : Bool) (annInt : ℕ) :
    SameFrames w (setGate w dst gate annInt) := by
  unfold setGate
  split_ifs
  · refine SameFrames.trans ?_ (sameFrames_addGate _ dst)
    exact sameFrames_mapPath fun _ => ⟨rfl, rfl⟩
  · exact sameFrames_gateDel w dst

theorem sameFrames_plinkBroken (w : MeshInfo) (sta : MacAddr) (walk : List MacAddr) :
    SameFrames w (rtwMeshPlinkBroken w sta walk) := by
  unfold rtwMeshPlinkBroken
  induction walk generalizing w with
  | nil => exact .refl w
  | cons dst walk ih =>
    refine SameFrames.trans (sameFrames_mapPath fun p => ?_) (ih _)
    split_ifs <;> exact ⟨rfl, rfl⟩

theorem sameFrames_nexthopLookup (w : MeshInfo) (mda msa : MacAddr) (env : MeshEnv) :
    SameFrames w (rtwMeshNexthopLookup w mda msa env).2 := by
  have hlookup := sameFrames_lookup w mda
  unfold rtwMeshNexthopLookup
  generalize rtwMeshPathLookup w mda = r at hlookup ⊢
  obtain ⟨path, w'⟩ := r
  dsimp only at hlookup ⊢
  split
  · exact hlookup
  · split_ifs
    · exact hlookup
    · exact hlookup.trans (sameFrames_queuePreq w' mda true true env.mallocPreq)
    · exact hlookup

theorem sameFrames_lookup_add (w : MeshInfo) (dst : MacAddr) (malloc : Bool) :
    SameFrames w (if (rtwMeshPathLookup w dst).1.isSome then (rtwMeshPathLookup w dst).2
      else (rtwMeshPathAdd (rtwMeshPathLookup w dst).2 dst malloc).2) := by
  split_ifs
  · exact sameFrames_lookup w dst
  · exact (sameFrames_lookup w dst).trans (sameFrames_add _ dst malloc)

theorem sameFrames_startResolving (w : MeshInfo) (mda : MacAddr) (env : MeshEnv) :
    SameFrames w (startResolving w mda env).2 := by
  have hlookup := sameFrames_lookup w mda
  unfold startResolving
  generalize rtwMeshPathLookup w mda = r at hlookup ⊢
  obtain ⟨path, w₁⟩ := r
  have hadd : SameFrames w
      (if path.isSome then (true, w₁) else rtwMeshPathAdd w₁ mda env.mallocPath).2 := by
    split_ifs
    · exact hlookup
    · exact hlookup.trans (sameFrames_add w₁ mda env.mallocPath)
  dsimp only
  generalize (if path.isSome then (true, w₁) else rtwMeshPathAdd w₁ mda env.mallocPath) = r
    at hadd ⊢
  obtain ⟨ok, w₂⟩ := r
  dsimp only at hadd ⊢
  split_ifs
  · exact hadd
  · split
    · exact hadd
    · dsimp only
      split_ifs
      · exact hadd
      · exact hadd.trans (sameFrames_queuePreq w₂ mda true false env.mallocPreq)

theorem sameFrames_akaChk (w : MeshInfo) (target : MacAddr) (env : MeshEnv) :
    SameFrames w (issueAkaChkFrame w target env) := by
  have hadd := sameFrames_lookup_add w target env.mallocPath
  unfold issueAkaChkFrame
  dsimp only
  generalize (if (rtwMeshPathLookup w target).1.isSome then _ else _) = w₁ at hadd ⊢
  split
  · exact hadd
  · split_ifs
    · exact hadd
    · exact hadd.trans (sameFrames_queuePreq w₁ target true false env.mallocPreq)

theorem ids_assignNexthop (p : Mpath) (sta : MacAddr) : (p.assignNexthop sta).ids = p.ids := by
  simp [Mpath.ids, Mpath.assignNexthop]

theorem sameFrames_fixPath (w : MeshInfo) (dst nextHop : MacAddr) :
    SameFrames w (fixPath w dst nextHop) :=
  sameFrames_mapPath fun p => ⟨ids_assignNexthop p nextHop, rfl⟩

theorem sameFrames_updatePath (w : MeshInfo) (dst sta : MacAddr) (expTime : ℕ) {f : Mpath → Mpath}
    (hf : ∀ p, (f p).ids = p.ids ∧ (f p).frameQueueLen = p.frameQueueLen) :
    SameFrames w (updatePath w dst sta expTime f) :=
  sameFrames_mapPath fun p =>
    ⟨(hf (p.assignNexthop sta)).1.trans (ids_assignNexthop p sta), (hf (p.assignNexthop sta)).2⟩

theorem sameFrames_learned {dst : MacAddr} {malloc : Bool} {fresh : Mpath → Bool}
    {update : MeshInfo → MeshInfo} {w w' : MeshInfo} (h : Learned w dst malloc fresh update w')
    (hupdate : ∀ w, SameFrames w (update w)) : SameFrames w w' := by
  have hlookup := sameFrames_lookup w dst
  have hadd := hlookup.trans (sameFrames_add (rtwMeshPathLookup w dst).2 dst malloc)
  cases h with
  | left => exact hlookup
  | updated p hp hfresh => exact hlookup.trans (hupdate _)
  | refused => exact hadd
  | made hp => exact hadd.trans (hupdate _)

theorem sameFrames_originatorInfo (w : MeshInfo) (h : LastHop) (r : RouteInfo) (malloc : Bool) :
    SameFrames w (originatorInfo w h r malloc).2 := by
  by_cases hown : r.originator = w.cfg.macAddr
  · rw [originatorInfo, if_pos hown]
    exact .refl w
  · exact sameFrames_learned (learned_originator hown) fun _ =>
      sameFrames_updatePath _ _ _ _ fun _ => ⟨rfl, rfl⟩

theorem sameFrames_transmitterInfo (w : MeshInfo) (h : LastHop) (r : RouteInfo) (malloc : Bool) :
    SameFrames w (transmitterInfo w h r malloc).2 := by
  by_cases hta : r.originator = h.ta
  · rw [transmitterInfo, if_pos hta]
    exact .refl w
  · exact sameFrames_learned (learned_transmitter hta) fun _ =>
      sameFrames_updatePath _ _ _ _ fun _ => ⟨rfl, rfl⟩

theorem sameFrames_preq (w : MeshInfo) (e : PreqElem) :
    SameFrames w (rtwHwmpPreqFrameProcess w e) := by
  unfold rtwHwmpPreqFrameProcess
  split_ifs
  · exact .refl w
  · exact (sameFrames_lookup w _).trans (sameFrames_setGate _ _ _ _)
  · refine (sameFrames_lookup w _).trans (sameFrames_mapPath fun p => ?_)
    split_ifs <;> exact ⟨rfl, rfl⟩

theorem sameFrames_prep (w : MeshInfo) (e : PrepElem) :
    SameFrames w (rtwHwmpPrepFrameProcess w e) := by
  have hlookup := sameFrames_lookup w e.route.originator
  unfold rtwHwmpPrepFrameProcess
  dsimp only
  split_ifs
  · refine hlookup.trans (sameFrames_mapPath fun p => ⟨rfl, rfl⟩)
  · refine (hlookup.trans ?_).trans (sameFrames_gateDel _ _)
    exact sameFrames_mapPath fun p => ⟨rfl, rfl⟩
  · exact hlookup
  · exact .refl w
  · exact sameFrames_lookup w _

theorem sameFrames_perr (w : MeshInfo) (ta : MacAddr) (e : PerrElem) :
    SameFrames w (rtwHwmpPerrFrameProcess w ta e) := by
  unfold rtwHwmpPerrFrameProcess
  by_cases httl : e.ttl ≤ 1
  · rw [if_pos httl]
    exact .refl w
  · rw [if_neg httl]
    refine (sameFrames_lookup w _).trans (sameFrames_mapPath fun p => ?_)
    dsimp only
    split <;> exact ⟨rfl, rfl⟩

theorem sameFrames_rann (w : MeshInfo) (h : LastHop) (e : RannElem) (env : MeshEnv) :
    SameFrames w (rtwHwmpRannFrameProcess w h e env) := by
  have hadd := sameFrames_lookup_add w e.addr env.mallocPath
  unfold rtwHwmpRannFrameProcess
  dsimp only
  generalize (if (rtwMeshPathLookup w e.addr).1.isSome then _ else _) = w₁ at hadd ⊢
  by_cases hself : e.addr = w.cfg.macAddr
  · rw [if_pos hself]
    exact .refl w
  · rw [if_neg hself]
    split
    · exact hadd
    · split_ifs
      · exact hadd
      · refine (hadd.trans ?_).trans (sameFrames_setGate _ _ _ _)
        refine ((sameFrames_queuePreq w₁ e.addr true true env.mallocPreq).trans ?_).trans
          (sameFrames_mapPath fun _ => ⟨rfl, rfl⟩)
        exact sameFrames_mapPath fun _ => ⟨rfl, rfl⟩
      · refine (hadd.trans ?_).trans (sameFrames_setGate _ _ _ _)
        exact sameFrames_mapPath fun _ => ⟨rfl, rfl⟩

theorem sameFrames_sendPreq (w : MeshInfo) (dst : MacAddr) : SameFrames w (sendPreq w dst) := by
  have hlast : SameFrames w { w with lastPreq := w.now } := sameFrames_of_paths rfl rfl
  unfold sendPreq
  dsimp only
  split_ifs
  · exact hlast
  · exact hlast.trans (sameFrames_mapPath fun _ => ⟨rfl, rfl⟩)

theorem sameFrames_discoverPath (w : MeshInfo) (node : PreqNode) :
    SameFrames w (discoverPath w node) := by
  have hlookup := sameFrames_lookup w node.dst
  unfold discoverPath
  generalize rtwMeshPathLookup w node.dst = x at hlookup ⊢
  obtain ⟨path, w₁⟩ := x
  dsimp only at hlookup ⊢
  split
  · exact hlookup
  · have hdequeued : SameFrames w (w₁.mapPath node.dst fun p =>
        p.mapFlags fun s => { s with reqQueued := false }) :=
      hlookup.trans (sameFrames_mapPath fun _ => ⟨rfl, rfl⟩)
    split_ifs
    · exact hlookup
    · exact hdequeued
    · refine (hdequeued.trans ?_).trans (sameFrames_sendPreq _ node.dst)
      exact sameFrames_mapPath fun _ => ⟨rfl, rfl⟩
    · exact hdequeued.trans (sameFrames_mapPath fun _ => ⟨rfl, rfl⟩)
    · exact hdequeued.trans (sameFrames_sendPreq _ node.dst)

theorem sameFrames_startDiscovery (w : MeshInfo) : SameFrames w (rtwMeshPathStartDiscovery w) := by
  unfold rtwMeshPathStartDiscovery
  split_ifs
  · exact .refl w
  · split
    · exact .refl w
    · refine SameFrames.trans ?_ (sameFrames_discoverPath _ _)
      exact sameFrames_of_paths rfl rfl

/-! ## Operations that move frames -/

theorem shifts_empty {t : Place} (ht : ∀ d, t ≠ .path d) (hids : w'.ids dst = [])
    (hlen : w'.len dst = 0) (hothers : ∀ d, d ≠ dst → w'.ids d = w.ids d ∧ w'.len d = w.len d)
    (hmoved : w'.tokens t = w.tokens t ++ w.ids dst)
    (hplaces : ∀ r, r ≠ t → (∀ d, r ≠ .path d) → w'.tokens r = w.tokens r)
    (htx : Counted w → w'.mpathTxQueueLen = w'.mpathTxQueue.length)
    (hresolving : w'.resolving = w.resolving) (hnext : w'.nextFrame = w.nextFrame) :
    Shifts [] w w' where
  loses := by
    have hempty : w'.tokens (.path dst) = [] := hids
    have hall : (w.tokens (.path dst)).Perm (w.ids dst ++ ([] ++ [])) :=
      .of_eq (List.append_nil _).symm
    refine loses_move (ht dst).symm hall (.of_eq hempty) (.of_eq hmoved) fun r hr hrt => .of_eq ?_
    cases r with
    | path d => exact (hothers d fun hd => hr (hd ▸ rfl)).1
    | _ => exact hplaces _ hrt fun d => Place.noConfusion
  counted hw := by
    refine ⟨fun d => ?_, fun d => ?_, htx hw⟩
    · by_cases hd : d = dst
      · rw [hd, hids, hlen]
        rfl
      · rw [(hothers d hd).1, (hothers d hd).2, hw.len]
    · by_cases hd : d = dst
      · rw [hd, hlen]
        exact Nat.zero_le _
      · rw [(hothers d hd).2]
        exact hw.bound d
  resolving := hresolving
  nextFrame := hnext
  waiting d id hid := by
    by_cases hd : d = dst
    · rw [hd, hids] at hid
      cases hid
    · exact ⟨d, (hothers d hd).1 ▸ hid⟩

/-- A path without its frames. -/
def Mpath.drained (p : Mpath) : Mpath := { p with frameQueue := [], frameQueueLen := 0 }

theorem ids_drained (w : MeshInfo) (p : Mpath) : (w.setPath dst (some p.drained)).ids dst = [] := by
  rw [ids_setPath, Function.update_self]
  rfl

theorem len_drained (w : MeshInfo) (p : Mpath) : (w.setPath dst (some p.drained)).len dst = 0 := by
  rw [len_setPath, Function.update_self]
  rfl

theorem others_setPath (w : MeshInfo) (dst : MacAddr) (p : Option Mpath) :
    ∀ d, d ≠ dst → (w.setPath dst p).ids d = w.ids d ∧ (w.setPath dst p).len d = w.len d := by
  intro d hd
  rw [ids_setPath, len_setPath, Function.update_of_ne hd, Function.update_of_ne hd]
  exact ⟨rfl, rfl⟩

theorem shifts_txPending (w : MeshInfo) (dst : MacAddr) :
    Shifts [] w (rtwMeshPathTxPending w dst) := by
  unfold rtwMeshPathTxPending
  split
  · exact (SameFrames.refl w).shifts
  next p hp =>
    by_cases hsend : (p.flags.active && p.frameQueueLen ≠ 0) = true
    · rw [if_pos hsend]
      refine shifts_empty (t := .tx) (fun _ => Place.noConfusion) (ids_drained w p)
        (len_drained w p) (others_setPath w dst _) ?_ (fun r hr hpath => ?_) (fun hw => ?_) rfl rfl
      · rw [ids_of_path hp]
        exact List.map_append
      · cases r with
        | path d => exact absurd rfl (hpath d)
        | tx => exact absurd rfl hr
        | _ => rfl
      · have hlen := hw.len dst
        rw [len_of_path hp, ids_of_path hp, Mpath.ids, List.length_map] at hlen
        change w.mpathTxQueueLen + p.frameQueueLen = (w.mpathTxQueue ++ p.frameQueue).length
        rw [List.length_append, hw.txLen, hlen]
    · rw [if_neg hsend]
      exact (SameFrames.refl w).shifts

theorem shifts_flushPending (w : MeshInfo) (dst : MacAddr) :
    Shifts [] w (rtwMeshPathFlushPending w dst) := by
  unfold rtwMeshPathFlushPending
  split
  · exact (SameFrames.refl w).shifts
  next p hp =>
    refine shifts_empty (t := .freed) (fun _ => Place.noConfusion) (ids_drained w p)
      (len_drained w p) (others_setPath w dst _) ?_ (fun r hr hpath => ?_) Counted.txLen rfl rfl
    · rw [ids_of_path hp]
      exact List.map_append
    · cases r with
      | path d => exact absurd rfl (hpath d)
      | freed => exact absurd rfl hr
      | _ => rfl

theorem ids_flushPending (w : MeshInfo) (dst : MacAddr) :
    (rtwMeshPathFlushPending w dst).ids dst = [] ∧ (rtwMeshPathFlushPending w dst).len dst = 0 := by
  unfold rtwMeshPathFlushPending
  split
  next hp => simp [ids, len, hp]
  next p hp => exact ⟨ids_drained w p, len_drained w p⟩

theorem shifts_pathDel (w : MeshInfo) (dst : MacAddr) : Shifts [] w (rtwMeshPathDel' w dst) := by
  unfold rtwMeshPathDel'
  split
  · exact (SameFrames.refl w).shifts
  · obtain ⟨hids, hlen⟩ := ids_flushPending (rtwMeshGateDel w dst) dst
    refine ((sameFrames_gateDel w dst).shifts.trans_nil (shifts_flushPending _ dst)).trans_nil ?_
    refine SameFrames.shifts ⟨fun d => ?_, fun d => ?_, rfl, rfl, rfl, rfl, rfl, rfl⟩
    · by_cases hd : d = dst
      · rw [hd, hids]
        exact congrFun (ids_setPath _ dst none) dst |>.trans (Function.update_self ..)
      · exact (others_setPath _ dst none d hd).1
    · by_cases hd : d = dst
      · rw [hd, hlen]
        exact congrFun (len_setPath _ dst none) dst |>.trans (Function.update_self ..)
      · exact (others_setPath _ dst none d hd).2

theorem shifts_deleteWhere (p : Mpath → Bool) (w : MeshInfo) (walk : List MacAddr) :
    Shifts [] w (deleteWhere p w walk) := by
  unfold deleteWhere
  induction walk generalizing w with
  | nil => exact (SameFrames.refl w).shifts
  | cons dst walk ih =>
    refine Shifts.trans_nil ?_ (ih _)
    dsimp only
    split_ifs
    · exact shifts_pathDel w dst
    · exact (SameFrames.refl w).shifts

theorem shifts_tblExpire (w : MeshInfo) (walk : List MacAddr) (malloc : MacAddr → Bool) :
    Shifts [] w (rtwMeshPathTblExpire w walk malloc) := by
  unfold rtwMeshPathTblExpire
  induction walk generalizing w with
  | nil => exact (SameFrames.refl w).shifts
  | cons dst walk ih =>
    refine Shifts.trans_nil ?_ (ih _)
    unfold expirePath
    split
    · exact (SameFrames.refl w).shifts
    next p hp =>
      split_ifs
      · exact shifts_pathDel w dst
      · exact (sameFrames_gateDel w dst).shifts
      · refine SameFrames.shifts (SameFrames.trans ?_ (sameFrames_queuePreq _ dst true true _))
        exact sameFrames_setPath hp rfl rfl
      · exact (SameFrames.refl w).shifts

theorem shifts_mpathTx (w : MeshInfo) : Shifts [] w (mpathTxTaskletHdl w) := by
  unfold mpathTxTaskletHdl
  split_ifs
  · refine ⟨?_, fun hw => ⟨hw.len, hw.bound, rfl⟩, rfl, rfl, fun d id hid => ⟨d, hid⟩⟩
    have hall : (w.tokens .tx).Perm (w.tokens .tx ++ ([] ++ [])) := .of_eq (List.append_nil _).symm
    have hne : Place.tx ≠ .posted := Place.noConfusion
    refine loses_move hne hall (.of_eq rfl) (.of_eq ?_) fun r hr hr' => ?_
    · exact List.map_append
    · cases r with
      | tx => exact absurd rfl hr
      | posted => exact absurd rfl hr'
      | _ => exact .refl _
  · exact (SameFrames.refl w).shifts

/-! ## The gates -/

theorem moveLoop_eq (g : Mpath) (failq : List MeshFrame) :
    (moveLoop g failq).2 = failq.drop (rtwMeshFrameQueueLen - g.frameQueueLen) ∧
      (moveLoop g failq).1.ids =
        g.ids ++ (failq.take (rtwMeshFrameQueueLen - g.frameQueueLen)).map (·.id) ∧
      (moveLoop g failq).1.frameQueueLen =
        g.frameQueueLen + min (rtwMeshFrameQueueLen - g.frameQueueLen) failq.length := by
  induction failq generalizing g with
  | nil => simp [moveLoop]
  | cons x failq ih =>
    unfold moveLoop
    by_cases hfull : rtwMeshFrameQueueLen ≤ g.frameQueueLen
    · rw [if_pos hfull, Nat.sub_eq_zero_of_le hfull]
      simp
    · rw [if_neg hfull]
      obtain ⟨hleft, hids, hlen⟩ := ih
        { g with
          frameQueue := g.frameQueue ++ [rtwPrepareForGate x g]
          frameQueueLen := g.frameQueueLen + 1 }
      have hroom : rtwMeshFrameQueueLen - g.frameQueueLen =
          rtwMeshFrameQueueLen - (g.frameQueueLen + 1) + 1 := by omega
      rw [hroom, List.drop_succ_cons, List.take_succ_cons]
      refine ⟨hleft, ?_, ?_⟩
      · rw [hids]
        simp [Mpath.ids, rtwPrepareForGate]
      · rw [hlen, List.length_cons]
        dsimp only
        omega

def leftover (w : MeshInfo) (gate from_ : MacAddr) : List ℕ :=
  match w.paths gate, w.paths from_ with
  | some g, some p =>
    if gate = from_ ∨ g.nextHop.isNone then []
    else p.ids.drop (rtwMeshFrameQueueLen - g.frameQueueLen)
  | _, _ => []

theorem shifts_transfer {from_ : MacAddr} {g g' p p' : Mpath} {moved : List ℕ}
    (hne : gate ≠ from_) (hg : w.paths gate = some g) (hp : w.paths from_ = some p)
    (hids : g'.ids = g.ids ++ moved) (hsplit : p.ids = moved ++ (p'.ids ++ lost))
    (hlen : Counted w → (g'.frameQueueLen = g'.ids.length ∧ p'.frameQueueLen = p'.ids.length) ∧
      g'.frameQueueLen ≤ rtwMeshFrameQueueLen ∧ p'.frameQueueLen ≤ rtwMeshFrameQueueLen) :
    Shifts lost w ((w.setPath gate (some g')).setPath from_ (some p')) := by
  set w' := (w.setPath gate (some g')).setPath from_ (some p') with hw'
  have hfrom : w'.ids from_ = p'.ids ∧ w'.len from_ = p'.frameQueueLen := by
    rw [hw', ids_setPath, len_setPath, Function.update_self, Function.update_self]
    exact ⟨rfl, rfl⟩
  have hgate : w'.ids gate = g'.ids ∧ w'.len gate = g'.frameQueueLen := by
    obtain ⟨h₁, h₂⟩ := others_setPath (w.setPath gate (some g')) from_ (some p') gate hne
    rw [hw', h₁, h₂, ids_setPath, len_setPath, Function.update_self, Function.update_self]
    exact ⟨rfl, rfl⟩
  have hothers : ∀ d, d ≠ from_ → d ≠ gate → w'.ids d = w.ids d ∧ w'.len d = w.len d := by
    intro d hd hd'
    obtain ⟨h₁, h₂⟩ := others_setPath (w.setPath gate (some g')) from_ (some p') d hd
    obtain ⟨h₃, h₄⟩ := others_setPath w gate (some g') d hd'
    exact ⟨h₁.trans h₃, h₂.trans h₄⟩
  refine ⟨?_, fun hw => ?_, rfl, rfl, fun d id hid => ?_⟩
  · have hperm : (w.tokens (.path from_)).Perm (moved ++ (p'.ids ++ lost)) :=
      .of_eq ((ids_of_path hp).trans hsplit)
    have hplace : Place.path from_ ≠ .path gate := fun h => hne (Place.path.inj h).symm
    refine loses_move hplace hperm (.of_eq hfrom.1) (.of_eq ?_) fun r hr hr' => .of_eq ?_
    · exact (hgate.1.trans hids).trans (congrArg (· ++ _) (ids_of_path hg).symm)
    · cases r with
      | path d => exact (hothers d (fun h => hr (h ▸ rfl)) fun h => hr' (h ▸ rfl)).1
      | _ => rfl
  · obtain ⟨⟨hglen, hplen⟩, hgbound, hpbound⟩ := hlen hw
    have hall : ∀ d, w'.len d = (w'.ids d).length ∧ w'.len d ≤ rtwMeshFrameQueueLen := by
      intro d
      by_cases hd : d = from_
      · rw [hd, hfrom.1, hfrom.2]
        exact ⟨hplen, hpbound⟩
      · by_cases hd' : d = gate
        · rw [hd', hgate.1, hgate.2]
          exact ⟨hglen, hgbound⟩
        · rw [(hothers d hd hd').1, (hothers d hd hd').2]
          exact ⟨hw.len d, hw.bound d⟩
    exact ⟨fun d => (hall d).1, fun d => (hall d).2, hw.txLen⟩
  · by_cases hd : d = from_
    · rw [hd, hfrom.1] at hid
      refine ⟨from_, ?_⟩
      rw [ids_of_path hp, hsplit]
      exact List.mem_append_right _ (List.mem_append_left _ hid)
    · by_cases hd' : d = gate
      · rw [hd', hgate.1, hids] at hid
        rcases List.mem_append.mp hid with hid | hid
        · exact ⟨gate, ids_of_path hg ▸ hid⟩
        · refine ⟨from_, ?_⟩
          rw [ids_of_path hp, hsplit]
          exact List.mem_append_left _ hid
      · exact ⟨d, (hothers d hd hd').1 ▸ hid⟩

/-- **What does not fit is lost** unless it is put back. -/
theorem shifts_move (w : MeshInfo) (gate from_ : MacAddr) (copy : Bool) :
    Shifts (if copy then [] else leftover w gate from_) w
      (rtwMeshPathMoveToQueue w gate from_ copy) := by
  have hstay : Shifts (if copy then [] else []) w w := by
    rw [ite_self]
    exact (SameFrames.refl w).shifts
  unfold rtwMeshPathMoveToQueue leftover
  cases hg : w.paths gate with
  | none => exact hstay
  | some g =>
    cases hp : w.paths from_ with
    | none => exact hstay
    | some p =>
      dsimp only
      by_cases hskip : gate = from_ ∨ g.nextHop.isNone
      · rw [if_pos hskip, if_pos hskip]
        exact hstay
      · rw [if_neg hskip, if_neg hskip]
        obtain ⟨hleft, hids, hlen⟩ := moveLoop_eq g p.frameQueue
        generalize moveLoop g p.frameQueue = r at hleft hids hlen ⊢
        obtain ⟨g', failq⟩ := r
        dsimp only at hleft hids hlen ⊢
        set room := rtwMeshFrameQueueLen - g.frameQueueLen with hroom
        have hsplit : p.ids = (p.frameQueue.take room).map (·.id) ++ p.ids.drop room := by
          rw [Mpath.ids, ← List.map_drop, ← List.map_append, List.take_append_drop]
        have hfailq : p.ids.drop room = failq.map (·.id) := by
          rw [hleft, Mpath.ids, List.map_drop]
        refine shifts_transfer (fun h => hskip (.inl h)) hg hp hids ?_ fun hw => ?_
        · refine hsplit.trans (congrArg _ ?_)
          cases copy with
          | true => exact hfailq.trans (List.append_nil _).symm
          | false => rfl
        · have hglen := hw.len gate
          have hgbound := hw.bound gate
          have hplen := hw.len from_
          have hpbound := hw.bound from_
          rw [len_of_path hg] at hglen hgbound
          rw [len_of_path hp] at hplen hpbound
          rw [ids_of_path hg] at hglen
          rw [ids_of_path hp, Mpath.ids, List.length_map] at hplen
          have hrest : failq.length = p.frameQueue.length - room := by
            rw [hleft, List.length_drop]
          have hgate : g'.frameQueueLen = g'.ids.length := by
            rw [hids, hlen, List.length_append, ← hglen, List.length_map, List.length_take]
          cases copy with
          | true =>
            refine ⟨⟨hgate, ?_⟩, by omega, ?_⟩
            · simp only [if_true, Mpath.ids, List.length_map]
              omega
            · simp only [if_true]
              omega
          | false => exact ⟨⟨hgate, rfl⟩, by omega, Nat.zero_le _⟩

theorem shifts_sendLoop_copy (gates : List MacAddr) (w : MeshInfo) (from_ : MacAddr) :
    Shifts [] w (gates.foldl sendToGate (w, from_, true)).1 := by
  induction gates generalizing w from_ with
  | nil => exact (SameFrames.refl w).shifts
  | cons gate gates ih =>
    rw [List.foldl_cons]
    unfold sendToGate
    dsimp only
    split_ifs
    · exact (shifts_move w gate from_ true).trans_nil (ih _ gate)
    · exact ih w from_

theorem sendLoop_eq (gates : List MacAddr) (w : MeshInfo) (from_ : MacAddr) :
    (gates.find? (isActive w) = none ∧
        gates.foldl sendToGate (w, from_, false) = (w, from_, false)) ∨
      ∃ (gate : MacAddr) (rest : List MacAddr), gates.find? (isActive w) = some gate ∧
        gates.foldl sendToGate (w, from_, false) =
          rest.foldl sendToGate (rtwMeshPathMoveToQueue w gate from_ false, gate, true) := by
  induction gates with
  | nil => exact .inl ⟨rfl, rfl⟩
  | cons gate gates ih =>
    rw [List.foldl_cons]
    have hround : sendToGate (w, from_, false) gate =
        if isActive w gate then (rtwMeshPathMoveToQueue w gate from_ false, gate, true)
        else (w, from_, false) := rfl
    by_cases hactive : isActive w gate
    · refine .inr ⟨gate, gates, List.find?_cons_of_pos hactive, ?_⟩
      rw [hround, if_pos hactive]
    · rw [List.find?_cons_of_neg hactive, hround, if_neg hactive]
      exact ih

theorem shifts_txPendings (gates : List MacAddr) (w : MeshInfo) :
    Shifts [] w (gates.foldl rtwMeshPathTxPending w) := by
  induction gates generalizing w with
  | nil => exact (SameFrames.refl w).shifts
  | cons gate gates ih => exact (shifts_txPending w gate).trans_nil (ih _)

def sendLost (w : MeshInfo) (dst : MacAddr) : List ℕ :=
  (w.knownGates.find? (isActive w)).elim [] fun gate => leftover w gate dst

theorem shifts_sendToGates (w : MeshInfo) (dst : MacAddr) :
    Shifts (sendLost w dst) w (rtwMeshPathSendToGates w dst) := by
  unfold rtwMeshPathSendToGates sendLost
  obtain ⟨hnone, hloop⟩ | ⟨gate, rest, hsome, hloop⟩ := sendLoop_eq w.knownGates w dst
  · rw [hnone, hloop]
    exact shifts_txPendings _ _
  · rw [hsome, hloop]
    have hmove := shifts_move w gate dst false
    have hloop := shifts_sendLoop_copy rest (rtwMeshPathMoveToQueue w gate dst false) gate
    have hrest := hloop.trans_nil (shifts_txPendings w.knownGates _)
    have hall := hmove.trans hrest
    rwa [List.append_nil] at hall

theorem sendLost_eq_nil_iff (hw : Counted w) : sendLost w dst = [] ↔ HasRoom w dst := by
  unfold sendLost HasRoom
  cases hfirst : w.knownGates.find? (isActive w) with
  | none => exact iff_of_true rfl fun gate hgate => nomatch hgate
  | some gate =>
    have hforall : (∀ g ∈ some gate, g ≠ dst → (w.paths g).any (·.nextHop.isSome) →
        w.len g + w.len dst ≤ rtwMeshFrameQueueLen) ↔
        (gate ≠ dst → (w.paths gate).any (·.nextHop.isSome) →
          w.len gate + w.len dst ≤ rtwMeshFrameQueueLen) :=
      ⟨fun h => h gate rfl, fun h g hg => Option.some.inj hg ▸ h⟩
    rw [hforall]
    change leftover w gate dst = [] ↔ _
    have hbound := hw.bound gate
    unfold leftover
    cases hg : w.paths gate with
    | none => exact iff_of_true rfl fun _ h => nomatch h
    | some g =>
      cases hp : w.paths dst with
      | none =>
        refine iff_of_true rfl fun _ _ => ?_
        have hzero : w.len dst = 0 := by simp [len, hp]
        omega
      | some p =>
        have hplen := hw.len dst
        rw [len_of_path hp, ids_of_path hp] at hplen
        rw [len_of_path hg] at hbound ⊢
        rw [len_of_path hp]
        dsimp only
        by_cases hskip : gate = dst ∨ g.nextHop.isNone
        · rw [if_pos hskip]
          refine iff_of_true rfl fun hne hsome => ?_
          rcases hskip with h | h
          · exact absurd h hne
          · simp [Option.isNone_iff_eq_none.mp h] at hsome
        · rw [if_neg hskip, List.drop_eq_nil_iff]
          obtain ⟨hne, hsome⟩ := not_or.mp hskip
          have hhop : g.nextHop.isSome := by simpa [← Option.isNone_iff_eq_none] using hsome
          constructor
          · intro h _ _
            omega
          · intro h
            have hroom := h hne (by simpa using hhop)
            omega

theorem sendLost_setPath (hp : w.paths dst = some p) (hids : q.ids = p.ids)
    (hactive : q.flags.active = p.flags.active) :
    sendLost (w.setPath dst (some q)) dst = sendLost w dst := by
  have hpath : (w.setPath dst (some q)).paths dst = some q := Function.update_self ..
  have hother : ∀ d, d ≠ dst → (w.setPath dst (some q)).paths d = w.paths d := fun d hd =>
    Function.update_of_ne hd ..
  have hall : isActive (w.setPath dst (some q)) = isActive w := by
    funext d
    unfold isActive
    by_cases hd : d = dst
    · rw [hd, hpath, hp]
      exact hactive
    · rw [hother d hd]
  have hleft (gate : MacAddr) :
      leftover (w.setPath dst (some q)) gate dst = leftover w gate dst := by
    unfold leftover
    rw [hpath, hp]
    by_cases hd : gate = dst
    · rw [hd, hpath, hp]
      dsimp only
      rw [if_pos (.inl rfl), if_pos (.inl rfl)]
    · rw [hother gate hd]
      cases w.paths gate with
      | none => rfl
      | some g =>
        dsimp only
        rw [hids]
  unfold sendLost
  rw [hall]
  exact congrArg (Option.elim _ []) (funext hleft)

def timerLost (w : MeshInfo) (dst : MacAddr) : List ℕ :=
  if givesUp w dst then sendLost w dst else []

theorem shifts_timer (w : MeshInfo) (dst : MacAddr) (malloc : Bool) :
    Shifts (timerLost w dst) w (rtwMeshPathTimer w dst malloc) := by
  unfold rtwMeshPathTimer timerLost
  cases hp : w.paths dst with
  | none =>
    have hno : givesUp w dst = false := by simp [givesUp, hp]
    rw [hno]
    exact (SameFrames.refl w).shifts
  | some p =>
    have hgive : givesUp w dst = (!p.flags.resolved && p.flags.resolving &&
        w.cfg.maxPreqRetries ≤ p.discoveryRetries && !p.isGate && 0 < w.numGates) := by
      simp [givesUp, hp]
    dsimp only
    by_cases hdone : p.flags.resolved ∨ !p.flags.resolving
    · rw [if_pos hdone, if_neg (by simp only [hgive]; grind)]
      refine SameFrames.shifts (sameFrames_setPath hp (ids_mapFlags _ _) rfl)
    · rw [if_neg hdone]
      by_cases hretry : p.discoveryRetries < w.cfg.maxPreqRetries
      · rw [if_pos hretry, if_neg (by simp only [hgive]; grind)]
        refine SameFrames.shifts (SameFrames.trans ?_ (sameFrames_queuePreq _ dst false _ malloc))
        exact sameFrames_setPath hp (ids_mapFlags p fun s => { s with reqQueued := false }) rfl
      · rw [if_neg hretry]
        set p' : Mpath := { ({ p with timer := false } : Mpath).mapFlags fun s =>
            { s with resolving := false, resolved := false, reqQueued := false } with
          expTime := w.now } with hp'
        have hsame : SameFrames w (w.setPath dst (some p')) := sameFrames_setPath hp rfl rfl
        by_cases hgates : !p.isGate ∧ 0 < w.numGates
        · rw [if_pos (show (!p.isGate) = true ∧ 0 < (w.setPath dst (some p')).numGates from hgates),
            if_pos (by simp only [hgive]; grind), ← sendLost_setPath hp (q := p') rfl rfl]
          exact hsame.shifts.trans (shifts_sendToGates _ dst)
        · have hgates' : ¬((!p.isGate) = true ∧ 0 < (w.setPath dst (some p')).numGates) := hgates
          rw [if_neg hgates', if_neg (by simp only [hgive]; grind)]
          exact hsame.shifts.trans_nil (shifts_flushPending _ dst)

theorem timerLost_subset (w : MeshInfo) (dst : MacAddr) : timerLost w dst ⊆ w.ids dst := by
  unfold timerLost sendLost
  split_ifs
  · cases w.knownGates.find? (isActive w) with
    | none => exact List.nil_subset _
    | some gate =>
      change leftover w gate dst ⊆ _
      unfold leftover
      split
      next g p _ hp =>
        rw [ids_of_path hp]
        split_ifs
        · exact List.nil_subset _
        · exact List.drop_subset _ _
      next => exact List.nil_subset _
  · exact List.nil_subset _

theorem shifts_freeFirst (w : MeshInfo) (dst : MacAddr) : Shifts [] w (freeFirst w dst) := by
  unfold freeFirst
  split
  · exact (SameFrames.refl w).shifts
  next p hp =>
    set p' : Mpath :=
      { p with frameQueue := p.frameQueue.tail, frameQueueLen := p.frameQueueLen - 1 } with hp'
    have hids : (w.setPath dst (some p')).ids dst = p'.ids := by
      rw [ids_setPath, Function.update_self]
      rfl
    have hlen : (w.setPath dst (some p')).len dst = p.frameQueueLen - 1 := by
      rw [len_setPath, Function.update_self]
      rfl
    have hothers := others_setPath w dst (some p')
    have hsplit : p.ids = p.frameQueue.head?.toList.map (·.id) ++ (p'.ids ++ []) := by
      rw [List.append_nil]
      unfold Mpath.ids
      rw [hp']
      cases p.frameQueue <;> rfl
    refine ⟨?_, fun hw => ?_, rfl, rfl, fun d id hid => ?_⟩
    · have hperm : (w.tokens (.path dst)).Perm _ := .of_eq ((ids_of_path hp).trans hsplit)
      have hne : Place.path dst ≠ .freed := Place.noConfusion
      refine loses_move hne hperm (.of_eq hids) (.of_eq List.map_append) fun r hr hr' => .of_eq ?_
      cases r with
      | path d => exact (hothers d fun h => hr (h ▸ rfl)).1
      | freed => exact absurd rfl hr'
      | _ => rfl
    · refine ⟨fun d => ?_, fun d => ?_, hw.txLen⟩
      · by_cases hd : d = dst
        · have hplen := hw.len dst
          rw [len_of_path hp, ids_of_path hp, Mpath.ids, List.length_map] at hplen
          change (w.setPath dst (some p')).len d = ((w.setPath dst (some p')).ids d).length
          rw [hd, hids, hlen, hplen, Mpath.ids, List.length_map, hp', List.length_tail]
        · exact (hothers d hd).2.trans ((hw.len d).trans (congrArg _ (hothers d hd).1.symm))
      · by_cases hd : d = dst
        · have hbound := hw.bound dst
          rw [len_of_path hp] at hbound
          change (w.setPath dst (some p')).len d ≤ _
          rw [hd, hlen]
          omega
        · exact le_of_eq_of_le (hothers d hd).2 (hw.bound d)
    · by_cases hd : d = dst
      · refine ⟨dst, ?_⟩
        change id ∈ (w.setPath dst (some p')).ids d at hid
        rw [hd, hids] at hid
        rw [ids_of_path hp, hsplit, List.append_nil]
        exact List.mem_append_right _ hid
      · exact ⟨d, (hothers d hd).1 ▸ hid⟩

/-- What holds between steps while no frame was lost. -/
structure Inv (w : MeshInfo) : Prop where
  apart : Apart w.tokens
  held : ∀ id ∈ w.resolving, Held w.tokens id
  fresh : ∀ id, Held w.tokens id → id < w.nextFrame
  waiting : ∀ dst, ∀ id ∈ w.ids dst, id ∈ w.resolving
  counted : Counted w

theorem Inv.conserved (h : Inv w) : Conserved w where
  place id hid := h.apart.existsUnique (h.held id hid)
  once := h.apart.nodup
  counted := h.counted

theorem Inv.shifts (h : Inv w) (hs : Shifts [] w w') : Inv w' := by
  obtain ⟨hapart, hheld⟩ := hs.loses h.apart
  have hsame : ∀ id, Held w'.tokens id ↔ Held w.tokens id := fun id =>
    (hheld id).trans (and_iff_left List.not_mem_nil)
  refine ⟨hapart, fun id hid => ?_, fun id hid => ?_, fun dst id hid => ?_, hs.counted h.counted⟩
  · rw [hs.resolving] at hid
    exact (hsame id).mpr (h.held id hid)
  · rw [hs.nextFrame]
    exact h.fresh id ((hsame id).mp hid)
  · obtain ⟨dst', hid'⟩ := hs.waiting dst id hid
    rw [hs.resolving]
    exact h.waiting dst' id hid'

theorem Inv.not_conserved_of_lost (h : Inv w) (hs : Shifts lost w w') (hlost : lost ≠ [])
    (hsub : lost ⊆ w.ids dst) : ¬Conserved w' := by
  obtain ⟨id, hid⟩ := List.exists_mem_of_ne_nil lost hlost
  intro hcon
  have hresolving : id ∈ w'.resolving := by
    rw [hs.resolving]
    exact h.waiting dst id (hsub hid)
  obtain ⟨p, hp, -⟩ := hcon.place id hresolving
  exact (((hs.loses h.apart).2 id).mp ⟨p, hp⟩).2 hid

theorem inv_init (cfg : MeshCfg) : Inv { cfg := cfg } where
  apart := by
    have hempty : ∀ p, ({ cfg := cfg } : MeshInfo).tokens p = [] := fun p => by
      cases p <;> rfl
    refine ⟨fun p => ?_, fun p q id hid => ?_⟩
    · rw [hempty]
      exact List.nodup_nil
    · rw [hempty] at hid
      cases hid
  held id hid := nomatch hid
  fresh := by
    rintro id ⟨p, hp⟩
    cases p <;> cases hp
  waiting dst id hid := nomatch hid
  counted := ⟨fun _ => rfl, fun _ => Nat.zero_le _, rfl⟩

/-- A new frame gets a number that no frame has. -/
theorem Inv.next (h : Inv w) :
    Inv { w with nextFrame := w.nextFrame + 1 } ∧
      ¬Held { w with nextFrame := w.nextFrame + 1 }.tokens w.nextFrame := by
  have hfresh : ∀ id, Held w.tokens id → id < w.nextFrame + 1 := fun id hid =>
    (h.fresh id hid).trans (Nat.lt_succ_self _)
  refine ⟨⟨h.apart, h.held, hfresh, h.waiting, h.counted.len, h.counted.bound, h.counted.txLen⟩, ?_⟩
  exact fun hheld => (h.fresh _ hheld).false

/-- The frame is freed at once. -/
theorem Inv.free {x : MeshFrame} (h : Inv w) (hnew : ¬Held w.tokens x.id)
    (hid : x.id < w.nextFrame) : Inv { w with freed := w.freed ++ [x] } := by
  set w' : MeshInfo := { w with freed := w.freed ++ [x] }
  have hfreed : (w'.tokens .freed).Perm (w.tokens .freed ++ [x.id]) := .of_eq List.map_append
  obtain ⟨hapart, hheld⟩ : Apart w'.tokens ∧
      ∀ id, Held w'.tokens id ↔ Held w.tokens id ∨ id = x.id := by
    refine h.apart.enter hnew hfreed fun r hr => ?_
    cases r with
    | freed => exact absurd rfl hr
    | _ => rfl
  refine ⟨hapart, fun id hmem => (hheld id).mpr (.inl (h.held id hmem)), fun id hmem => ?_,
    h.waiting, h.counted.len, h.counted.bound, h.counted.txLen⟩
  rcases (hheld id).mp hmem with hmem | rfl
  · exact h.fresh id hmem
  · exact hid

theorem queuePreq_path {start refresh malloc : Bool} (hp : w.paths dst = some p) :
    ((rtwMeshQueuePreq w dst start refresh malloc).paths dst).isSome := by
  unfold rtwMeshQueuePreq
  split_ifs
  · simp [hp]
  · rw [hp]
    dsimp only
    split_ifs
    · simp [hp]
    · simp [setPath]

theorem startResolving_path {mda : MacAddr} {env : MeshEnv}
    (h : (startResolving w mda env).1) : ((startResolving w mda env).2.paths mda).isSome := by
  unfold startResolving at h ⊢
  dsimp only at h ⊢
  generalize (if (rtwMeshPathLookup w mda).1.isSome then (true, (rtwMeshPathLookup w mda).2)
    else rtwMeshPathAdd (rtwMeshPathLookup w mda).2 mda env.mallocPath) = r at h ⊢
  obtain ⟨ok, w'⟩ := r
  dsimp only at h ⊢
  cases ok with
  | false => cases h
  | true =>
    rw [if_neg (by decide)] at h ⊢
    cases hp : w'.paths mda with
    | none =>
      rw [hp] at h
      cases h
    | some p =>
      dsimp only
      split_ifs
      · simp [hp]
      · exact queuePreq_path hp

theorem freeFirst_path (hp : w.paths dst = some p) :
    ((freeFirst w dst).paths dst).isSome ∧ (freeFirst w dst).len dst = w.len dst - 1 := by
  unfold freeFirst
  rw [hp]
  refine ⟨?_, ?_⟩
  · simp [setPath]
  · change (w.setPath dst _).len dst = _
    rw [len_setPath, Function.update_self, len_of_path hp]
    rfl

/-- **The frame waits** in the queue of its path. -/
theorem Inv.enqueue {x : MeshFrame} (h : Inv w) (hpath : (w.paths dst).isSome)
    (hnew : ¬Held w.tokens x.id) (hid : x.id < w.nextFrame) :
    Inv { enqueueFrame w dst x with resolving := w.resolving ++ [x.id] } := by
  obtain ⟨p, hp⟩ := Option.isSome_iff_exists.mp hpath
  set full : Bool := (w.paths dst).any fun p => rtwMeshFrameQueueLen ≤ p.frameQueueLen with hfull
  set w₁ := if full then freeFirst w dst else w with hw₁
  have hshifts : Shifts [] w w₁ := by
    rw [hw₁]
    split_ifs
    · exact shifts_freeFirst w dst
    · exact (SameFrames.refl w).shifts
  have hroom : (w₁.paths dst).isSome ∧ w₁.len dst < rtwMeshFrameQueueLen := by
    have hbound := h.counted.bound dst
    rw [hw₁]
    by_cases hf : full
    · rw [if_pos hf, (freeFirst_path hp).2]
      refine ⟨(freeFirst_path hp).1, ?_⟩
      simp only [rtwMeshFrameQueueLen] at hbound ⊢
      omega
    · rw [if_neg hf, len_of_path hp]
      refine ⟨hpath, ?_⟩
      simpa [hfull, hp] using hf
  obtain ⟨hsome, hlen⟩ := hroom
  obtain ⟨p₁, hp₁⟩ := Option.isSome_iff_exists.mp hsome
  have h₁ : Inv w₁ := h.shifts hshifts
  have hresolving : w₁.resolving = w.resolving := hshifts.resolving
  have hnew₁ : ¬Held w₁.tokens x.id := fun hheld =>
    hnew (((hshifts.loses h.apart).2 x.id).mp hheld).1
  set p₂ : Mpath := { p₁ with
    frameQueue := p₁.frameQueue ++ [x], frameQueueLen := p₁.frameQueueLen + 1 } with hp₂
  have hdef : enqueueFrame w dst x = w₁.setPath dst (some p₂) := by
    unfold enqueueFrame mapPath
    dsimp only
    rw [← hfull, ← hw₁, hp₁]
    rfl
  rw [hdef]
  set w₂ : MeshInfo := { w₁.setPath dst (some p₂) with resolving := w.resolving ++ [x.id] }
  have hids : w₂.ids dst = w₁.ids dst ++ [x.id] := by
    change (w₁.setPath dst (some p₂)).ids dst = _
    rw [ids_setPath, Function.update_self, ids_of_path hp₁]
    exact List.map_append
  have hlens : w₂.len dst = w₁.len dst + 1 := by
    change (w₁.setPath dst (some p₂)).len dst = _
    rw [len_setPath, Function.update_self, len_of_path hp₁]
    rfl
  have hothers : ∀ d, d ≠ dst → w₂.ids d = w₁.ids d ∧ w₂.len d = w₁.len d :=
    others_setPath w₁ dst (some p₂)
  have hwaits : (w₂.tokens (.path dst)).Perm (w₁.tokens (.path dst) ++ [x.id]) := .of_eq hids
  obtain ⟨hapart, hheld⟩ : Apart w₂.tokens ∧
      ∀ id, Held w₂.tokens id ↔ Held w₁.tokens id ∨ id = x.id := by
    refine h₁.apart.enter hnew₁ hwaits fun r hr => ?_
    cases r with
    | path d => exact (hothers d fun hd => hr (hd ▸ rfl)).1
    | _ => rfl
  refine ⟨hapart, fun id hmem => ?_, fun id hmem => ?_, fun d id hmem => ?_, fun d => ?_,
    fun d => ?_, h₁.counted.txLen⟩
  · rcases List.mem_append.mp hmem with hmem | hmem
    · exact (hheld id).mpr (.inl (h₁.held id (hresolving ▸ hmem)))
    · exact (hheld id).mpr (.inr (List.mem_singleton.mp hmem))
  · have hnext : w₂.nextFrame = w.nextFrame := hshifts.nextFrame
    rw [hnext]
    rcases (hheld id).mp hmem with hmem | rfl
    · exact hshifts.nextFrame ▸ h₁.fresh id hmem
    · exact hid
  · by_cases hd : d = dst
    · rw [hd, hids] at hmem
      rcases List.mem_append.mp hmem with hmem | hmem
      · exact List.mem_append_left _ (hresolving ▸ h₁.waiting dst id hmem)
      · exact List.mem_append_right _ hmem
    · rw [(hothers d hd).1] at hmem
      exact List.mem_append_left _ (hresolving ▸ h₁.waiting d id hmem)
  · by_cases hd : d = dst
    · rw [hd, hids, hlens, h₁.counted.len, List.length_append, List.length_singleton]
    · rw [(hothers d hd).1, (hothers d hd).2, h₁.counted.len]
  · by_cases hd : d = dst
    · rw [hd, hlens]
      exact hlen
    · rw [(hothers d hd).2]
      exact h₁.counted.bound d

theorem Inv.resolve (h : Inv w) (mda msa : MacAddr) (mode : MeshFrameMode) (env : MeshEnv) :
    Inv (rtwMeshNexthopResolve w mda msa mode env) := by
  unfold rtwMeshNexthopResolve
  set x : MeshFrame := { id := w.nextFrame, mda := mda, ra := mda, meshFrameMode := mode }
  obtain ⟨hnext, hnew⟩ := h.next
  dsimp only
  generalize hw₁ : { w with nextFrame := w.nextFrame + 1 } = w₁ at hnext hnew
  have hid : x.id < w₁.nextFrame := hw₁ ▸ Nat.lt_succ_self _
  -- neither the lookup nor a new path touches the frames
  have hkeep : ∀ w', SameFrames w₁ w' → Inv w' ∧ ¬Held w'.tokens x.id ∧ x.id < w'.nextFrame := by
    intro w' hsame
    refine ⟨hnext.shifts hsame.shifts, fun hheld => hnew ?_, hsame.nextFrame ▸ hid⟩
    exact (((hsame.shifts.loses hnext.apart).2 x.id).mp hheld).1
  have hlookup := sameFrames_nexthopLookup w₁ mda msa env
  generalize rtwMeshNexthopLookup w₁ mda msa env = r at hlookup ⊢
  obtain ⟨nextHop, w₂⟩ := r
  dsimp only at hlookup ⊢
  split_ifs
  · exact (hkeep w₂ hlookup).1
  · have hstart := hlookup.trans (sameFrames_startResolving w₂ mda env)
    obtain ⟨hinv, hnew', hid'⟩ := hkeep _ hstart
    exact hinv.free hnew' hid'
  next hok =>
    have hstart := hlookup.trans (sameFrames_startResolving w₂ mda env)
    obtain ⟨hinv, hnew', hid'⟩ := hkeep _ hstart
    refine hinv.enqueue (startResolving_path ?_) hnew' hid'
    simpa using hok

theorem shifts_sendFresh (x : RouteResult × MeshInfo) (dst : MacAddr) :
    Shifts [] x.2 (sendFresh x dst) := by
  unfold sendFresh
  split_ifs
  · exact shifts_txPending x.2 dst
  · exact (SameFrames.refl x.2).shifts

theorem shifts_routeInfoGet (w : MeshInfo) (h : LastHop) (r : RouteInfo) (malloc malloc' : Bool) :
    Shifts [] w (rtwHwmpRouteInfoGet w h r malloc malloc').2 := by
  have horiginator := (sameFrames_originatorInfo w h r malloc).shifts.trans_nil
    (shifts_sendFresh _ r.originator)
  unfold rtwHwmpRouteInfoGet
  dsimp only
  split_ifs
  · exact horiginator
  · refine (horiginator.trans_nil ?_).trans_nil (shifts_sendFresh _ h.ta)
    exact (sameFrames_transmitterInfo _ h r malloc').shifts

/-- **Only a timer loses frames.** -/
theorem Inv.meshStep (h : Inv w) {e : MeshEvent} (he : ∀ dst malloc, e ≠ .timer dst malloc)
    (hstep : meshStep w e = some w') : Inv w' := by
  cases e with
  | elapse ticks =>
    obtain rfl := Option.some.inj hstep
    refine h.shifts (SameFrames.shifts ?_)
    exact sameFrames_of_paths rfl rfl
  | nexthopResolve mda msa mode env =>
    obtain rfl := Option.some.inj hstep
    exact h.resolve mda msa mode env
  | rxNexthopResolve mda msa env =>
    obtain rfl := Option.some.inj hstep
    have hlookup := sameFrames_nexthopLookup w mda msa env
    unfold rtwMeshRxNexthopResolve
    dsimp only
    split_ifs
    · exact h.shifts hlookup.shifts
    · exact h.shifts (hlookup.trans (sameFrames_startResolving _ mda env)).shifts
  | akaChk target env =>
    obtain rfl := Option.some.inj hstep
    exact h.shifts (sameFrames_akaChk w target env).shifts
  | preq hop e malloc malloc' =>
    obtain rfl := Option.some.inj hstep
    have hroute := h.shifts (shifts_routeInfoGet w hop e.route malloc malloc')
    split_ifs
    · exact hroute.shifts (sameFrames_preq _ e).shifts
    · exact hroute
  | prep hop e malloc malloc' =>
    obtain rfl := Option.some.inj hstep
    have hroute := h.shifts (shifts_routeInfoGet w hop e.route malloc malloc')
    split_ifs
    · exact hroute.shifts (sameFrames_prep _ e).shifts
    · exact hroute
  | perr ta e =>
    obtain rfl := Option.some.inj hstep
    exact h.shifts (sameFrames_perr w ta e).shifts
  | rann hop e env =>
    obtain rfl := Option.some.inj hstep
    exact h.shifts (sameFrames_rann w hop e env).shifts
  | startDiscovery =>
    obtain rfl := Option.some.inj hstep
    exact h.shifts (sameFrames_startDiscovery w).shifts
  | timer dst malloc => exact absurd rfl (he dst malloc)
  | mpathTx =>
    obtain rfl := Option.some.inj hstep
    exact h.shifts (shifts_mpathTx w)
  | pathDel dst =>
    obtain rfl := Option.some.inj hstep
    exact h.shifts (shifts_pathDel w dst)
  | plinkBroken sta walk =>
    obtain rfl := Option.some.inj hstep
    exact h.shifts (sameFrames_plinkBroken w sta walk).shifts
  | flushByNexthop sta walk =>
    obtain rfl := Option.some.inj hstep
    exact h.shifts (shifts_deleteWhere _ w walk)
  | flushByIface walk =>
    obtain rfl := Option.some.inj hstep
    exact h.shifts (shifts_deleteWhere _ w walk)
  | pathExpire walk malloc =>
    obtain rfl := Option.some.inj hstep
    exact h.shifts (shifts_tblExpire w walk malloc)
  | addMpath dst nextHop malloc =>
    simp only [Mesh.meshStep, Option.ite_none_right_eq_some] at hstep
    obtain ⟨-, hstep⟩ := hstep
    obtain rfl := Option.some.inj hstep
    have hfix := (sameFrames_add w dst malloc).trans (sameFrames_fixPath _ dst nextHop)
    exact h.shifts (hfix.shifts.trans_nil (shifts_txPending _ dst))
  | changeMpath dst nextHop =>
    obtain rfl := Option.some.inj hstep
    have hfix := (sameFrames_lookup w dst).trans (sameFrames_fixPath _ dst nextHop)
    exact h.shifts (hfix.shifts.trans_nil (shifts_txPending _ dst))

theorem shifts_rxAdvance (w : MeshInfo) (h : LastHop) (r : RouteInfo) (stage : RxStage)
    (process malloc : Bool) : Shifts [] w (rxAdvance w h r stage process malloc).1 := by
  cases stage with
  | originator => exact (sameFrames_originatorInfo w h r malloc).shifts
  | txOriginator => exact shifts_txPending w r.originator
  | transmitter => exact (sameFrames_transmitterInfo w h r malloc).shifts
  | txTransmitter => exact shifts_txPending w h.ta
  | process => exact (SameFrames.refl w).shifts

theorem shifts_advance (w : MeshInfo) (malloc : Bool) (j : MeshJob) :
    Shifts [] w (j.advance w malloc).1 := by
  cases j with
  | preq h e stage process =>
    have hpart := shifts_rxAdvance w h e.route stage process malloc
    unfold MeshJob.advance
    dsimp only
    split
    · exact hpart
    · dsimp only
      split_ifs
      · exact hpart.trans_nil (sameFrames_preq _ e).shifts
      · exact hpart
  | prep h e stage process =>
    have hpart := shifts_rxAdvance w h e.route stage process malloc
    unfold MeshJob.advance
    dsimp only
    split
    · exact hpart
    · dsimp only
      split_ifs
      · exact hpart.trans_nil (sameFrames_prep _ e).shifts
      · exact hpart
  | fix dst => exact shifts_txPending w dst

/-- **A timer is as good as the room in the queue of the gate.** -/
theorem Inv.timer (h : Inv w) (dst : MacAddr) (malloc : Bool) :
    (Conserved (rtwMeshPathTimer w dst malloc) ↔ timerLost w dst = []) ∧
      (timerLost w dst = [] → Inv (rtwMeshPathTimer w dst malloc)) := by
  have hshifts := shifts_timer w dst malloc
  have hinv : timerLost w dst = [] → Inv (rtwMeshPathTimer w dst malloc) := fun hnil => by
    rw [hnil] at hshifts
    exact h.shifts hshifts
  refine ⟨⟨fun hcon => ?_, fun hnil => (hinv hnil).conserved⟩, hinv⟩
  by_contra hlost
  exact h.not_conserved_of_lost hshifts hlost (timerLost_subset w dst) hcon

theorem timerLost_eq_nil_iff (h : Inv w) :
    timerLost w dst = [] ↔ (givesUp w dst → HasRoom w dst) := by
  unfold timerLost
  split_ifs with hgive
  · rw [sendLost_eq_nil_iff h.counted]
    exact ⟨fun hroom _ => hroom, fun hroom => hroom hgive⟩
  · exact iff_of_true rfl fun hgive' => absurd hgive' hgive

/-- **A step keeps the frames exactly if it meets the condition.** -/
theorem conserved_step {s s' : MeshSystem} {e : MeshSystemEvent} (h : Inv s.info)
    (hstep : meshSystemStep s e = some s') :
    (Conserved s'.info ↔ RoomFor s e) ∧ (RoomFor s e → Inv s'.info) := by
  -- every step but a timer keeps the invariant
  have hkeep : givenUp s.info e = none → Inv s'.info →
      (Conserved s'.info ↔ RoomFor s e) ∧ (RoomFor s e → Inv s'.info) := by
    intro hnone hinv
    refine ⟨iff_of_true hinv.conserved fun dst hdst => ?_, fun _ => hinv⟩
    rw [hnone] at hdst
    cases hdst
  cases e with
  | op e =>
    obtain ⟨w', hw', rfl⟩ := Option.map_eq_some_iff.mp hstep
    by_cases htimer : ∃ dst malloc, e = .timer dst malloc
    · obtain ⟨dst, malloc, rfl⟩ := htimer
      have hroom : RoomFor s (.op (.timer dst malloc)) ↔ timerLost s.info dst = [] := by
        rw [timerLost_eq_nil_iff h]
        unfold RoomFor givenUp
        dsimp only
        split_ifs with hgive
        · exact ⟨fun hall _ => hall dst rfl, fun hroom d hd => Option.some.inj hd ▸ hroom hgive⟩
        · exact iff_of_true (fun d hd => nomatch hd) fun hgive' => absurd hgive' hgive
      simp only [meshStep, Option.ite_none_right_eq_some] at hw'
      obtain ⟨-, hw'⟩ := hw'
      obtain rfl := Option.some.inj hw'
      rw [hroom]
      exact h.timer dst malloc
    · push Not at htimer
      refine hkeep ?_ (h.meshStep htimer hw')
      cases e with
      | timer dst malloc => exact absurd rfl (htimer dst malloc)
      | _ => rfl
  | preq hop e =>
    obtain rfl := Option.some.inj hstep
    exact hkeep rfl h
  | prep hop e =>
    obtain rfl := Option.some.inj hstep
    exact hkeep rfl h
  | addMpath dst nextHop malloc =>
    simp only [meshSystemStep, Option.ite_none_right_eq_some] at hstep
    obtain ⟨-, hstep⟩ := hstep
    obtain rfl := Option.some.inj hstep
    refine hkeep rfl (h.shifts (SameFrames.shifts ?_))
    exact (sameFrames_add s.info dst malloc).trans (sameFrames_fixPath _ dst nextHop)
  | changeMpath dst nextHop =>
    obtain rfl := Option.some.inj hstep
    have hlookup := sameFrames_lookup s.info dst
    refine hkeep rfl ?_
    split_ifs
    · exact h.shifts hlookup.shifts
    · exact h.shifts (hlookup.trans (sameFrames_fixPath _ dst nextHop)).shifts
  | job k malloc =>
    obtain ⟨j, -, rfl⟩ := Option.map_eq_some_iff.mp hstep
    exact hkeep rfl (h.shifts (shifts_advance s.info malloc j))

/-! ## Runs -/

/-- **The frames are conserved** all along a run exactly if every path that is given up finds room
for its frames. -/
theorem conserved_iff (cfg : MeshCfg) {es : List MeshSystemEvent} {s : MeshSystem}
    (hrun : run meshSystemStep { info := { cfg := cfg } } es = some s) :
    (∀ es' t, es' <+: es → run meshSystemStep { info := { cfg := cfg } } es' = some t →
        Conserved t.info) ↔
      Meets meshSystemStep RoomFor { info := { cfg := cfg } } es := by
  have hP : ∀ s : MeshSystem, Inv s.info → Conserved s.info := fun s h => h.conserved
  refine forall_prefix_iff_meets hP ?_ (inv_init cfg) hrun
  exact fun s e s' h hstep => conserved_step h hstep

def meshMac : MacAddr := ⟨2, 0, 0, 0, 0, 1⟩

def gateMac : MacAddr := ⟨2, 0, 0, 0, 0, 2⟩

def goneMac : MacAddr := ⟨2, 0, 0, 0, 0, 3⟩

def meshCfg : MeshCfg := { macAddr := meshMac }

def gateSays (sn : UInt32) (expTime : ℕ) : MeshSystemEvent :=
  .preq { ta := gateMac, metric := 1 }
    { route := { originator := gateMac, sn := sn, metric := 1, expTime := expTime }
      target := .bcast, targetSn := 0, targetOnly := true, isGate := true, lifetime := 50 }

def sendTo (mda : MacAddr) : MeshSystemEvent := .op (.nexthopResolve mda meshMac .ucastData {})

def giveUpRun (frames : ℕ) : List MeshSystemEvent :=
  [gateSays 1 100] ++ List.replicate 4 (.job 0 true) ++ [.op (.elapse 101)] ++
    List.replicate frames (sendTo goneMac) ++ [.op .startDiscovery] ++
    (List.replicate 4 [.op (.timer goneMac true), .op (.elapse 10), .op .startDiscovery]).flatten ++
    [sendTo gateMac, gateSays 2 1000, .job 0 true]

/-- Nine frames fit beside the one of the gate. -/
theorem conserved_iff_nine :
    Meets meshSystemStep RoomFor { info := { cfg := meshCfg } }
        (giveUpRun 9 ++ [.op (.timer goneMac true)]) ∧
      ∀ es' t, es' <+: giveUpRun 9 ++ [.op (.timer goneMac true)] →
        run meshSystemStep { info := { cfg := meshCfg } } es' = some t → Conserved t.info := by
  have hmeets : Meets meshSystemStep RoomFor { info := { cfg := meshCfg } }
      (giveUpRun 9 ++ [.op (.timer goneMac true)]) := by decide +kernel
  obtain ⟨s, hrun, -⟩ : ∃ s, run meshSystemStep { info := { cfg := meshCfg } }
      (giveUpRun 9 ++ [.op (.timer goneMac true)]) = some s ∧ s.info.mpathTxQueueLen = 10 :=
    exists_run_of_any (by decide +kernel)
  exact ⟨hmeets, (conserved_iff meshCfg hrun).mpr hmeets⟩

/-- The tenth frame is lost. -/
theorem not_conserved :
    ¬∀ (cfg : MeshCfg) (es : List MeshSystemEvent) (s : MeshSystem),
      run meshSystemStep { info := { cfg := cfg } } es = some s → Conserved s.info := by
  intro hall
  have hmeets : Meets meshSystemStep RoomFor { info := { cfg := meshCfg } } (giveUpRun 10) := by
    decide +kernel
  obtain ⟨s, hrun, htimer, hroom⟩ : ∃ s,
      run meshSystemStep { info := { cfg := meshCfg } } (giveUpRun 10) = some s ∧
        ((s.info.paths goneMac).any (·.timer) = true ∧
          ¬RoomFor s (.op (.timer goneMac true))) :=
    exists_run_of_any (by decide +kernel)
  have hkeep : ∀ (s : MeshSystem) (e : MeshSystemEvent) (s' : MeshSystem), Inv s.info →
      RoomFor s e → meshSystemStep s e = some s' → Inv s'.info := fun s e s' h hok hstep =>
    (conserved_step h hstep).2 hok
  have hinv := run_invariant_of_meets hkeep (inv_init meshCfg) hmeets hrun
  have hstep : meshSystemStep s (.op (.timer goneMac true)) =
      some { s with info := rtwMeshPathTimer s.info goneMac true } := by
    simp only [meshSystemStep, meshStep]
    rw [if_pos htimer]
    rfl
  have hrunLost := run_append.mpr ⟨s, hrun, run_cons.mpr ⟨_, hstep, run_nil⟩⟩
  exact hroom ((conserved_step hinv hstep).1.mp (hall meshCfg _ _ hrunLost))

end Rtl88x2eu.Mesh
