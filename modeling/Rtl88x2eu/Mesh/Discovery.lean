import Rtl88x2eu.Mesh.Hwmp

/-!
# Paths that are looked for

A path that is resolving is looked for until it is found or given up: a timer runs, at whose end
another request is put into the queue, and the request that is taken from the queue starts the timer
again. Where the request cannot be put into the queue, or is not sent, neither is there: nothing
looks for the path any more, and as it is resolving it does not expire either.

`REQ_QUEUED` stands for the request in the queue, but goes with the path, while the request does
not: a path that is made again finds the request of the old one.

## Main definitions

* `nodes`
* `PreqEvent`, `preqStep`: the operations
* `Settled`, `DiscoveryOk`

## Main results

* `SoundBut.timer`, `SoundBut.discoverPath`: what the condition is for
* `settled_of_run`: the runs on which no path gets stuck
* `not_settled`: a request that there is no memory for
-/

namespace Rtl88x2eu.Mesh.Discovery

open MeshInfo Transition

/-- The requests for a destination. -/
def nodes (w : MeshInfo) (dst : MacAddr) : List PreqNode := w.preqQueue.filter (·.dst = dst)

/-- **No path is stuck, and the flag stands for the request in the queue.** -/
structure Settled (w : MeshInfo) : Prop where
  resolving : ∀ dst p, w.paths dst = some p → p.flags.resolving = true →
    p.timer = true ∨ nodes w dst ≠ []
  reqQueued : ∀ dst p, w.paths dst = some p → p.flags.fixed = false →
    (p.flags.reqQueued = true ↔ (nodes w dst).length = 1)
  len : w.preqQueueLen = w.preqQueue.length
  bound : w.preqQueueLen ≤ rtwMaxPreqQueueLen

/-- An operation of the path table, or a request for a path with any flags. -/
inductive PreqEvent
  | op (e : MeshEvent)
  | queuePreq (dst : MacAddr) (start refresh malloc : Bool)

def preqStep (w : MeshInfo) : PreqEvent → Option MeshInfo
  | .op e => meshStep w e
  | .queuePreq dst start refresh malloc => some (rtwMeshQueuePreq w dst start refresh malloc)

/-! ## The condition -/

def Makes (w : MeshInfo) (dst : MacAddr) (mpaths : ℤ) (malloc : Bool) : Prop :=
  w.paths dst = none ∧ dst ≠ w.cfg.macAddr ∧ dst.isMcast = false ∧ mpaths ≠ rtwMeshMaxMpaths ∧
    malloc = true

instance Makes.decidable (w : MeshInfo) (dst : MacAddr) (mpaths : ℤ) (malloc : Bool) :
    Decidable (Makes w dst mpaths malloc) :=
  inferInstanceAs (Decidable (_ ∧ _ ∧ _ ∧ _ ∧ _))

/-- No request waits for a path that is made. -/
def Clear (w : MeshInfo) (dst : MacAddr) (mpaths : ℤ) (malloc : Bool) : Prop :=
  Makes w dst mpaths malloc → nodes w dst = []

def RouteClear (w : MeshInfo) (h : LastHop) (r : RouteInfo) (malloc malloc' : Bool) : Prop :=
  Clear w r.originator w.mpaths malloc ∧
    (r.originator ≠ h.ta →
      (r.originator = w.cfg.macAddr ∨ w.paths r.originator ≠ none →
        Clear w h.ta w.mpaths malloc') ∧
      (Makes w r.originator w.mpaths malloc → Clear w h.ta (w.mpaths + 1) malloc'))

/-- A request is sent for this path. -/
def sends (p : Mpath) (node : PreqNode) : Bool :=
  !p.flags.fixed &&
    if node.start then !p.flags.resolving else p.flags.resolving && !p.flags.resolved

def SendClear (w : MeshInfo) : Prop :=
  w.preqQueueLen ≠ 0 → w.lastPreq + w.cfg.minPreqInt ≤ w.now →
    ∀ node ∈ w.preqQueue.head?, ∀ p ∈ w.paths node.dst, sends p node = true →
      w.cfg.elementTtl ≠ 0 ∨ p.timer = true

/-- `rtw_mesh_path_timer` finds no request for a path that is not found yet, and has another one put
into the queue. -/
def TimerClear (w : MeshInfo) (dst : MacAddr) (malloc : Bool) : Prop :=
  ∀ p ∈ w.paths dst, p.flags.resolving = true → p.flags.resolved = false →
    p.flags.reqQueued = false ∧
      (p.discoveryRetries < w.cfg.maxPreqRetries →
        malloc = true ∧ w.preqQueueLen ≠ rtwMaxPreqQueueLen)

/-- **The condition** on a step. -/
def DiscoveryOk (w : MeshInfo) : PreqEvent → Prop
  | .op (.nexthopResolve mda _ _ env) => Clear w mda w.mpaths env.mallocPath
  | .op (.rxNexthopResolve mda _ env) => Clear w mda w.mpaths env.mallocPath
  | .op (.akaChk target env) => Clear w target w.mpaths env.mallocPath
  | .op (.rann _ e env) => Clear w e.addr w.mpaths env.mallocPath
  | .op (.preq h e malloc malloc') => RouteClear w h e.route malloc malloc'
  | .op (.prep h e malloc malloc') => RouteClear w h e.route malloc malloc'
  | .op .startDiscovery => SendClear w
  | .op (.timer dst malloc) => TimerClear w dst malloc
  | _ => True

instance Clear.decidable (w : MeshInfo) (dst : MacAddr) (mpaths : ℤ) (malloc : Bool) :
    Decidable (Clear w dst mpaths malloc) :=
  inferInstanceAs (Decidable (_ → _))

instance RouteClear.decidable (w : MeshInfo) (h : LastHop) (r : RouteInfo)
    (malloc malloc' : Bool) : Decidable (RouteClear w h r malloc malloc') :=
  inferInstanceAs (Decidable (_ ∧ (_ → (_ → _) ∧ (_ → _))))

instance SendClear.decidable (w : MeshInfo) : Decidable (SendClear w) :=
  inferInstanceAs (Decidable (_ → _ → ∀ node ∈ w.preqQueue.head?, ∀ p ∈ w.paths node.dst,
    sends p node = true → _ ∨ p.timer = true))

instance TimerClear.decidable (w : MeshInfo) (dst : MacAddr) (malloc : Bool) :
    Decidable (TimerClear w dst malloc) :=
  inferInstanceAs (Decidable (∀ p ∈ w.paths dst, p.flags.resolving = true →
    p.flags.resolved = false → p.flags.reqQueued = false ∧
      (p.discoveryRetries < w.cfg.maxPreqRetries → _ ∧ _)))

instance DiscoveryOk.decidable (w : MeshInfo) : ∀ e, Decidable (DiscoveryOk w e)
  | .op (.nexthopResolve mda _ _ env) => Clear.decidable w mda w.mpaths env.mallocPath
  | .op (.rxNexthopResolve mda _ env) => Clear.decidable w mda w.mpaths env.mallocPath
  | .op (.akaChk target env) => Clear.decidable w target w.mpaths env.mallocPath
  | .op (.rann _ e env) => Clear.decidable w e.addr w.mpaths env.mallocPath
  | .op (.preq h e malloc malloc') => RouteClear.decidable w h e.route malloc malloc'
  | .op (.prep h e malloc malloc') => RouteClear.decidable w h e.route malloc malloc'
  | .op .startDiscovery => SendClear.decidable w
  | .op (.timer dst malloc) => TimerClear.decidable w dst malloc
  | .op (.elapse _) | .op (.perr _ _) | .op .mpathTx | .op (.pathDel _) | .op (.plinkBroken _ _)
  | .op (.flushByNexthop _ _) | .op (.flushByIface _) | .op (.pathExpire _ _)
  | .op (.addMpath _ _ _) | .op (.changeMpath _ _) | .queuePreq _ _ _ _ => instDecidableTrue

/-- What the invariant sees of a path. -/
structure View where
  fixed : Bool
  resolving : Bool
  reqQueued : Bool
  timer : Bool

def view (p : Mpath) : View := ⟨p.flags.fixed, p.flags.resolving, p.flags.reqQueued, p.timer⟩

/-- A path with the requests for it. One that is resolving without a timer waits for a request that
goes on with the discovery, not for one that begins it: that one is dropped. -/
structure View.Sound (v : View) (ns : List PreqNode) : Prop where
  fixed : v.fixed = true → v.resolving = false
  queued : v.fixed = false →
    v.reqQueued = true ∧ ns.length = 1 ∨ v.reqQueued = false ∧ ns = []
  resolving : v.resolving = true → v.timer = true ∨ ∃ n ∈ ns, n.start = false

/-- Every path but those of `except` is as it shall be, and the queue is counted. -/
structure SoundBut (except : MacAddr → Prop) (w : MeshInfo) : Prop where
  path : ∀ dst p, ¬except dst → w.paths dst = some p → (view p).Sound (nodes w dst)
  len : w.preqQueueLen = w.preqQueue.length
  bound : w.preqQueueLen ≤ rtwMaxPreqQueueLen

abbrev Sound : MeshInfo → Prop := SoundBut fun _ => False

variable {w w' w'' : MeshInfo} {dst : MacAddr} {p q : Mpath} {except : MacAddr → Prop}

theorem SoundBut.settled (h : Sound w) : Settled w where
  resolving dst p hp hres := by
    refine ((h.path dst p not_false hp).resolving hres).imp_right ?_
    rintro ⟨n, hn, -⟩ hnil
    rw [hnil] at hn
    cases hn
  reqQueued dst p hp hfixed := by
    rcases (h.path dst p not_false hp).queued hfixed with ⟨hq, hlen⟩ | ⟨hq, hnil⟩
    · exact iff_of_true hq hlen
    · rw [hnil]
      exact iff_of_false (by simp [show p.flags.reqQueued = false from hq]) (by simp)
  len := h.len
  bound := h.bound

/-! ## Operations that leave this alone -/

/-- An operation that the invariant does not see. -/
structure Calm (w w' : MeshInfo) : Prop where
  view : ∀ dst, (w'.paths dst).map view = (w.paths dst).map view
  preqQueue : w'.preqQueue = w.preqQueue
  preqQueueLen : w'.preqQueueLen = w.preqQueueLen
  mpaths : w'.mpaths = w.mpaths
  cfg : w'.cfg = w.cfg

theorem Calm.trans (h : Calm w w') (h' : Calm w' w'') : Calm w w'' where
  view dst := (h'.view dst).trans (h.view dst)
  preqQueue := h'.preqQueue.trans h.preqQueue
  preqQueueLen := h'.preqQueueLen.trans h.preqQueueLen
  mpaths := h'.mpaths.trans h.mpaths
  cfg := h'.cfg.trans h.cfg

theorem Calm.nodes (h : Calm w w') (dst : MacAddr) : nodes w' dst = nodes w dst :=
  congrArg (List.filter _) h.preqQueue

theorem Calm.paths_eq_none (h : Calm w w') (dst : MacAddr) :
    w'.paths dst = none ↔ w.paths dst = none := by
  rw [← Option.map_eq_none_iff, h.view, Option.map_eq_none_iff]

theorem SoundBut.calm (h : SoundBut except w) (hcalm : Calm w w') : SoundBut except w' where
  path dst p hexcept hp := by
    obtain ⟨q, hq, hview⟩ := Option.map_eq_some_iff.mp
      ((hcalm.view dst).symm.trans (congrArg (Option.map Discovery.view) hp))
    rw [← hview, hcalm.nodes]
    exact h.path dst q hexcept hq
  len := by rw [hcalm.preqQueueLen, hcalm.preqQueue, h.len]
  bound := by
    rw [hcalm.preqQueueLen]
    exact h.bound

/-- Nothing but what is not seen has changed. -/
theorem calm_of_paths (h : w'.paths = w.paths)
    (hothers : (w'.preqQueue, w'.preqQueueLen, w'.mpaths, w'.cfg) =
      (w.preqQueue, w.preqQueueLen, w.mpaths, w.cfg)) : Calm w w' := by
  simp only [Prod.mk.injEq] at hothers
  obtain ⟨hqueue, hlen, hmpaths, hcfg⟩ := hothers
  exact ⟨fun dst => by rw [h], hqueue, hlen, hmpaths, hcfg⟩

theorem Calm.refl (w : MeshInfo) : Calm w w := calm_of_paths rfl rfl

@[simp] theorem paths_setPath (w : MeshInfo) (dst : MacAddr) (p : Option Mpath) :
    (w.setPath dst p).paths dst = p :=
  Function.update_self ..

theorem paths_setPath_of_ne {d : MacAddr} (h : d ≠ dst) (p : Option Mpath) :
    (w.setPath dst p).paths d = w.paths d :=
  Function.update_of_ne h ..

theorem calm_setPath (h : w.paths dst = some p) (hview : view q = view p) :
    Calm w (w.setPath dst (some q)) where
  view d := by
    by_cases hd : d = dst
    · subst hd
      rw [paths_setPath, h, Option.map_some, Option.map_some, hview]
    · rw [paths_setPath_of_ne hd]
  preqQueue := rfl
  preqQueueLen := rfl
  mpaths := rfl
  cfg := rfl

theorem calm_mapPath {f : Mpath → Mpath} (hf : ∀ p, view (f p) = view p) :
    Calm w (w.mapPath dst f) := by
  unfold mapPath
  cases hp : w.paths dst with
  | none =>
    refine calm_of_paths ?_ rfl
    exact Function.update_eq_self_iff.mpr hp.symm
  | some p => exact calm_setPath hp (hf p)

theorem calm_lookup (w : MeshInfo) (dst : MacAddr) : Calm w (rtwMeshPathLookup w dst).2 := by
  refine calm_mapPath fun p => ?_
  split_ifs <;> rfl

theorem calm_addGate (w : MeshInfo) (dst : MacAddr) : Calm w (rtwMeshPathAddGate w dst) := by
  unfold rtwMeshPathAddGate
  split
  · exact .refl w
  next p hp =>
    dsimp only
    split_ifs
    · exact calm_setPath hp rfl
    · exact (calm_setPath hp (q := { p with isGate := true, gateTimeout := _ }) rfl).trans
        (calm_of_paths rfl rfl)

theorem calm_gateDel (w : MeshInfo) (dst : MacAddr) : Calm w (rtwMeshGateDel w dst) := by
  unfold rtwMeshGateDel
  split
  · exact .refl w
  next p hp =>
    split_ifs
    · exact (calm_setPath hp (q := { p with isGate := false }) rfl).trans (calm_of_paths rfl rfl)
    · exact .refl w

theorem calm_setGate (w : MeshInfo) (dst : MacAddr) (gate : Bool) (annInt : ℕ) :
    Calm w (setGate w dst gate annInt) := by
  unfold setGate
  split_ifs
  · refine Calm.trans ?_ (calm_addGate _ dst)
    exact calm_mapPath fun _ => rfl
  · exact calm_gateDel w dst

theorem calm_drain (h : w.paths dst = some p) :
    Calm w (w.setPath dst (some { p with frameQueue := [], frameQueueLen := 0 })) :=
  calm_setPath h rfl

theorem calm_txPending (w : MeshInfo) (dst : MacAddr) : Calm w (rtwMeshPathTxPending w dst) := by
  unfold rtwMeshPathTxPending
  split
  · exact .refl w
  next p hp =>
    split_ifs
    · exact (calm_drain hp).trans (calm_of_paths rfl rfl)
    · exact .refl w

theorem calm_flushPending (w : MeshInfo) (dst : MacAddr) :
    Calm w (rtwMeshPathFlushPending w dst) := by
  unfold rtwMeshPathFlushPending
  split
  · exact .refl w
  next p hp => exact (calm_drain hp).trans (calm_of_paths rfl rfl)

theorem view_moveLoop (gate : Mpath) (failq : List MeshFrame) :
    view (moveLoop gate failq).1 = view gate := by
  induction failq generalizing gate with
  | nil => rfl
  | cons x failq ih =>
    unfold moveLoop
    split_ifs
    · rfl
    · exact ih _

theorem calm_move (w : MeshInfo) (gate from_ : MacAddr) (copy : Bool) :
    Calm w (rtwMeshPathMoveToQueue w gate from_ copy) := by
  unfold rtwMeshPathMoveToQueue
  split
  next g p hg hp =>
    by_cases hskip : gate = from_ ∨ g.nextHop.isNone
    · rw [if_pos hskip]
      exact .refl w
    · rw [if_neg hskip]
      dsimp only
      have hne : from_ ≠ gate := fun heq => hskip (.inl heq.symm)
      refine (calm_setPath hg (view_moveLoop g p.frameQueue)).trans (calm_setPath (p := p) ?_ ?_)
      · rw [paths_setPath_of_ne hne, hp]
      · cases copy <;> rfl
  · exact .refl w

theorem calm_foldl {α : Type} {f : MeshInfo → α → MeshInfo} (h : ∀ w a, Calm w (f w a))
    (l : List α) (w : MeshInfo) : Calm w (l.foldl f w) :=
  List.foldlRecOn l f (Calm.refl w) fun _ hcalm a _ => hcalm.trans (h _ a)

theorem calm_sendToGates (w : MeshInfo) (dst : MacAddr) :
    Calm w (rtwMeshPathSendToGates w dst) := by
  have hloop (gates : List MacAddr) (s : MeshInfo × MacAddr × Bool) :
      Calm s.1 (gates.foldl sendToGate s).1 := by
    induction gates generalizing s with
    | nil => exact .refl _
    | cons gate gates ih =>
      refine Calm.trans ?_ (ih _)
      unfold sendToGate
      dsimp only
      split_ifs
      · exact calm_move _ _ _ _
      · exact .refl _
  exact (hloop _ (w, dst, false)).trans (calm_foldl calm_txPending _ _)

theorem calm_mpathTx (w : MeshInfo) : Calm w (mpathTxTaskletHdl w) := by
  unfold mpathTxTaskletHdl
  split_ifs
  · exact calm_of_paths rfl rfl
  · exact .refl w

theorem calm_plinkBroken (w : MeshInfo) (sta : MacAddr) (walk : List MacAddr) :
    Calm w (rtwMeshPlinkBroken w sta walk) := by
  refine calm_foldl (fun w dst => calm_mapPath fun p => ?_) walk w
  split_ifs <;> rfl

theorem calm_freeFirst (w : MeshInfo) (dst : MacAddr) : Calm w (freeFirst w dst) := by
  unfold freeFirst
  split
  · exact .refl w
  next p hp =>
    refine (calm_setPath hp ?_).trans (calm_of_paths rfl rfl)
    rfl

theorem calm_enqueueFrame (w : MeshInfo) (dst : MacAddr) (x : MeshFrame) :
    Calm w (enqueueFrame w dst x) := by
  unfold enqueueFrame
  dsimp only
  refine Calm.trans ?_ (calm_mapPath fun _ => rfl)
  split_ifs
  · exact calm_freeFirst w dst
  · exact .refl w

theorem calm_updatePath (w : MeshInfo) (dst sta : MacAddr) (expTime : ℕ) {f : Mpath → Mpath}
    (hf : ∀ p, view (f p) = view p) : Calm w (updatePath w dst sta expTime f) :=
  calm_mapPath fun p => hf (p.assignNexthop sta)

theorem calm_sendFresh (x : RouteResult × MeshInfo) (dst : MacAddr) :
    Calm x.2 (sendFresh x dst) := by
  unfold sendFresh
  split_ifs
  · exact calm_txPending x.2 dst
  · exact .refl x.2

theorem calm_preqProcess (w : MeshInfo) (e : PreqElem) : Calm w (rtwHwmpPreqFrameProcess w e) := by
  unfold rtwHwmpPreqFrameProcess
  split_ifs
  · exact .refl w
  · exact (calm_lookup w _).trans (calm_setGate _ _ _ _)
  · refine (calm_lookup w _).trans (calm_mapPath fun p => ?_)
    split_ifs <;> rfl

theorem calm_prepProcess (w : MeshInfo) (e : PrepElem) : Calm w (rtwHwmpPrepFrameProcess w e) := by
  have hlookup := calm_lookup w e.route.originator
  unfold rtwHwmpPrepFrameProcess
  dsimp only
  split_ifs
  · exact hlookup.trans (calm_mapPath fun _ => rfl)
  · refine Calm.trans (hlookup.trans ?_) (calm_gateDel _ _)
    exact calm_mapPath fun _ => rfl
  · exact hlookup
  · exact .refl w
  · exact calm_lookup w _

theorem calm_perr (w : MeshInfo) (ta : MacAddr) (e : PerrElem) :
    Calm w (rtwHwmpPerrFrameProcess w ta e) := by
  unfold rtwHwmpPerrFrameProcess
  by_cases httl : e.ttl ≤ 1
  · rw [if_pos httl]
    exact .refl w
  · rw [if_neg httl]
    refine (calm_lookup w _).trans (calm_mapPath fun p => ?_)
    dsimp only
    split <;> rfl

/-! ## Requests -/

/-- An operation that may put a request into the queue for a path that there is. -/
structure Tame (w w' : MeshInfo) : Prop where
  sound : Sound w → Sound w'
  absent : ∀ dst, w'.paths dst = none ↔ w.paths dst = none
  nodes : ∀ dst, w.paths dst = none → nodes w' dst = nodes w dst
  mpaths : w'.mpaths = w.mpaths
  cfg : w'.cfg = w.cfg

theorem Calm.tame (h : Calm w w') : Tame w w' where
  sound hw := SoundBut.calm hw h
  absent := h.paths_eq_none
  nodes dst _ := h.nodes dst
  mpaths := h.mpaths
  cfg := h.cfg

theorem Tame.trans (h : Tame w w') (h' : Tame w' w'') : Tame w w'' where
  sound hw := h'.sound (h.sound hw)
  absent dst := (h'.absent dst).trans (h.absent dst)
  nodes dst hd := (h'.nodes dst ((h.absent dst).mpr hd)).trans (h.nodes dst hd)
  mpaths := h'.mpaths.trans h.mpaths
  cfg := h'.cfg.trans h.cfg

theorem Tame.clear {mpaths : ℤ} {malloc : Bool} (h : Tame w w')
    (hclear : Clear w dst mpaths malloc) : Clear w' dst mpaths malloc := by
  rintro ⟨hnone, hself, hmake⟩
  have hnone := (h.absent dst).mp hnone
  rw [h.cfg] at hself
  rw [h.nodes dst hnone]
  exact hclear ⟨hnone, hself, hmake⟩

theorem Tame.clear_next {malloc : Bool} (h : Tame w w') (hclear : Clear w dst w.mpaths malloc) :
    Clear w' dst w'.mpaths malloc := by
  rw [h.mpaths]
  exact h.clear hclear

theorem nodes_snoc (w : MeshInfo) (node : PreqNode) (dst : MacAddr) :
    nodes { w with preqQueue := w.preqQueue ++ [node] } dst =
      nodes w dst ++ if node.dst = dst then [node] else [] := by
  unfold nodes
  rw [List.filter_append]
  by_cases hd : node.dst = dst <;> simp [hd]

/-- A path with one more request. -/
theorem View.Sound.queue {v : View} {ns : List PreqNode} (h : v.Sound ns) (hq : v.reqQueued = false)
    (node : PreqNode) : View.Sound { v with reqQueued := true } (ns ++ [node]) where
  fixed := h.fixed
  queued hfixed := by
    rcases h.queued hfixed with ⟨hq', -⟩ | ⟨-, rfl⟩
    · rw [hq] at hq'
      cases hq'
    · exact .inl ⟨rfl, rfl⟩
  resolving hres := (h.resolving hres).imp_right fun ⟨n, hn, hstart⟩ =>
    ⟨n, List.mem_append_left _ hn, hstart⟩

theorem SoundBut.setPath (h : SoundBut (· = dst) w) (hp : (view p).Sound (nodes w dst)) :
    Sound (w.setPath dst (some p)) where
  path d q _ hq := by
    by_cases hd : d = dst
    · subst hd
      rw [paths_setPath] at hq
      obtain rfl := Option.some.inj hq
      exact hp
    · rw [paths_setPath_of_ne hd] at hq
      exact h.path d q hd hq
  len := h.len
  bound := h.bound

/-- A request comes to the end of the queue. -/
theorem SoundBut.queue {node : PreqNode} (h : SoundBut (· = dst) w) (hnode : node.dst = dst)
    (hfull : w.preqQueueLen ≠ rtwMaxPreqQueueLen)
    (hp : (view p).Sound (nodes w dst ++ [node])) :
    Sound { w.setPath dst (some p) with
      preqQueue := w.preqQueue ++ [node], preqQueueLen := w.preqQueueLen + 1 } := by
  refine SoundBut.setPath (w := { w with
    preqQueue := w.preqQueue ++ [node], preqQueueLen := w.preqQueueLen + 1 }) ?_ ?_
  · refine ⟨fun d q hd hq => ?_, ?_, ?_⟩
    · change (view q).Sound (nodes { w with preqQueue := _ } d)
      rw [nodes_snoc, hnode, if_neg (Ne.symm hd), List.append_nil]
      exact h.path d q hd hq
    · rw [List.length_append, h.len, List.length_singleton]
    · exact lt_of_le_of_ne h.bound hfull
  · change (view p).Sound (nodes { w with preqQueue := _ } dst)
    rw [nodes_snoc, if_pos hnode]
    exact hp

theorem SoundBut.mono {except' : MacAddr → Prop} (h : SoundBut except w)
    (himp : ∀ d, except d → except' d) : SoundBut except' w :=
  ⟨fun d p hd => h.path d p (mt (himp d) hd), h.len, h.bound⟩

theorem SoundBut.forget (h : SoundBut (· = dst) w) (p : Option Mpath) :
    SoundBut (· = dst) (w.setPath dst p) where
  path d q hd hq := by
    rw [paths_setPath_of_ne hd] at hq
    exact h.path d q hd hq
  len := h.len
  bound := h.bound

theorem SoundBut.queuePreq {start refresh : Bool} (h : SoundBut (· = dst) w)
    (hp : w.paths dst = some p) (hq : p.flags.reqQueued = false)
    (hfull : w.preqQueueLen ≠ rtwMaxPreqQueueLen)
    (hqueued : View.Sound { view p with reqQueued := true }
      (nodes w dst ++ [⟨dst, start, refresh⟩])) :
    Sound (rtwMeshQueuePreq w dst start refresh true) := by
  unfold rtwMeshQueuePreq
  rw [if_neg (by simpa using hfull), hp]
  dsimp only
  rw [if_neg (ne_true_of_eq_false hq)]
  exact h.queue rfl hfull hqueued

/-- What `rtw_mesh_queue_preq` does, if it does anything. -/
theorem queuePreq_cases (w : MeshInfo) (dst : MacAddr) (start refresh malloc : Bool) :
    rtwMeshQueuePreq w dst start refresh malloc = w ∨
      ∃ p, w.paths dst = some p ∧ p.flags.reqQueued = false ∧
        w.preqQueueLen ≠ rtwMaxPreqQueueLen ∧
        rtwMeshQueuePreq w dst start refresh malloc =
          { w.setPath dst (some (p.mapFlags fun s => { s with reqQueued := true })) with
            preqQueue := w.preqQueue ++ [⟨dst, start, refresh⟩]
            preqQueueLen := w.preqQueueLen + 1 } := by
  unfold rtwMeshQueuePreq
  by_cases hfull : (!malloc) = true ∨ w.preqQueueLen = rtwMaxPreqQueueLen
  · rw [if_pos hfull]
    exact .inl rfl
  · rw [if_neg hfull]
    rw [not_or] at hfull
    split
    · exact .inl rfl
    next p hp =>
      split_ifs with hq
      · exact .inl rfl
      · exact .inr ⟨p, hp, Bool.eq_false_iff.mpr hq, hfull.2, rfl⟩

theorem tame_queuePreq (w : MeshInfo) (dst : MacAddr) (start refresh malloc : Bool) :
    Tame w (rtwMeshQueuePreq w dst start refresh malloc) := by
  rcases queuePreq_cases w dst start refresh malloc with heq | ⟨p, hp, hq, hfull, heq⟩
  · rw [heq]
    exact (Calm.refl w).tame
  · rw [heq]
    refine ⟨fun h => ?_, fun d => ?_, fun d hd => ?_, rfl, rfl⟩
    · refine (h.mono fun _ => False.elim).queue rfl hfull ?_
      exact (h.path dst p not_false hp).queue hq _
    · by_cases hd : d = dst
      · subst hd
        simp [hp]
      · exact iff_of_eq (congrArg (· = none) (paths_setPath_of_ne hd _))
    · refine (nodes_snoc w _ d).trans ?_
      rw [if_neg, List.append_nil]
      rintro rfl
      rw [hp] at hd
      cases hd

theorem tame_nexthopLookup (w : MeshInfo) (mda msa : MacAddr) (env : MeshEnv) :
    Tame w (rtwMeshNexthopLookup w mda msa env).2 := by
  have hlookup := (calm_lookup w mda).tame
  unfold rtwMeshNexthopLookup
  generalize rtwMeshPathLookup w mda = r at hlookup ⊢
  obtain ⟨path, w'⟩ := r
  dsimp only at hlookup ⊢
  split
  · exact hlookup
  · split_ifs
    · exact hlookup
    · exact hlookup.trans (tame_queuePreq w' mda true true env.mallocPreq)
    · exact hlookup

/-! ## Paths that are made -/

/-- What `rtw_mesh_path_add` does, if it says that there is a path: it counts one. -/
theorem pathAdd_cases (w : MeshInfo) (dst : MacAddr) (malloc : Bool) :
    (rtwMeshPathAdd w dst malloc).1 = false ∧
        (rtwMeshPathAdd w dst malloc).2.paths = w.paths ∧
        (rtwMeshPathAdd w dst malloc).2.preqQueue = w.preqQueue ∧
        (rtwMeshPathAdd w dst malloc).2.preqQueueLen = w.preqQueueLen ∨
      rtwMeshPathAdd w dst malloc = (true, { w with
        mpaths := w.mpaths + 1
        paths := if w.paths dst = none then
            Function.update w.paths dst (some { dst := dst, expTime := w.now })
          else w.paths }) ∧ (w.paths dst = none → Makes w dst w.mpaths malloc) := by
  unfold rtwMeshPathAdd
  by_cases hself : dst = w.cfg.macAddr ∨ dst.isMcast
  · rw [if_pos hself]
    exact .inl ⟨rfl, rfl, rfl, rfl⟩
  rw [if_neg hself]
  by_cases hmax : w.mpaths = rtwMeshMaxMpaths
  · rw [if_pos hmax]
    exact .inl ⟨rfl, rfl, rfl, rfl⟩
  rw [if_neg hmax]
  dsimp only
  by_cases hmalloc : (!malloc) = true
  · rw [if_pos hmalloc]
    exact .inl ⟨rfl, rfl, rfl, rfl⟩
  rw [if_neg hmalloc]
  right
  rw [not_or] at hself
  have hmakes (hnone : w.paths dst = none) : Makes w dst w.mpaths malloc :=
    ⟨hnone, hself.1, by simpa using hself.2, hmax, by simpa using hmalloc⟩
  split
  next p hp =>
    have hsome : ¬w.paths dst = none := by
      rw [hp]
      exact Option.some_ne_none p
    exact ⟨by rw [if_neg hsome], hmakes⟩
  next hnone => exact ⟨by rw [if_pos hnone]; rfl, hmakes⟩

/-- A path is made; the others are as they were. -/
theorem SoundBut.add (h : Sound w) (dst : MacAddr) (malloc : Bool) :
    SoundBut (fun d => d = dst ∧ nodes w dst ≠ [] ∧ Makes w dst w.mpaths malloc)
      (rtwMeshPathAdd w dst malloc).2 := by
  rcases pathAdd_cases w dst malloc with ⟨-, hpaths, hqueue, hlen⟩ | ⟨hadd, hmakes⟩
  · refine ⟨fun d p _ hp => ?_, by rw [hlen, hqueue, h.len], by rw [hlen]; exact h.bound⟩
    rw [hpaths] at hp
    unfold nodes
    rw [hqueue]
    exact h.path d p not_false hp
  · rw [hadd]
    refine ⟨fun d p hd hp => ?_, h.len, h.bound⟩
    dsimp only at hp
    split_ifs at hp with hnone
    · by_cases hdst : d = dst
      · subst hdst
        rw [Function.update_self] at hp
        obtain rfl := Option.some.inj hp
        have hnil : nodes w d = [] := by
          by_contra hne
          exact hd ⟨rfl, hne, hmakes hnone⟩
        change View.Sound _ (nodes w d)
        rw [hnil]
        exact ⟨fun _ => rfl, fun _ => .inr ⟨rfl, rfl⟩, fun h => absurd h Bool.false_ne_true⟩
      · rw [Function.update_of_ne hdst] at hp
        exact h.path d p not_false hp
    · exact h.path d p not_false hp

theorem SoundBut.add_clear {malloc : Bool} (h : Sound w) (hclear : Clear w dst w.mpaths malloc) :
    Sound (rtwMeshPathAdd w dst malloc).2 :=
  (h.add dst malloc).mono fun _ ⟨_, hne, hmakes⟩ => hne (hclear hmakes)

theorem SoundBut.startResolving {mda : MacAddr} {env : MeshEnv} (h : Sound w)
    (hclear : Clear w mda w.mpaths env.mallocPath) : Sound (startResolving w mda env).2 := by
  have hlookup := (calm_lookup w mda).tame
  have hclear := hlookup.clear_next hclear
  unfold Mesh.startResolving
  generalize rtwMeshPathLookup w mda = r at hlookup hclear ⊢
  obtain ⟨path, w₁⟩ := r
  have hadd : Sound
      (if path.isSome then (true, w₁) else rtwMeshPathAdd w₁ mda env.mallocPath).2 := by
    split_ifs
    · exact hlookup.sound h
    · exact (hlookup.sound h).add_clear hclear
  dsimp only
  generalize (if path.isSome then (true, w₁) else rtwMeshPathAdd w₁ mda env.mallocPath) = r
    at hadd ⊢
  obtain ⟨ok, w₂⟩ := r
  dsimp only at hadd ⊢
  split_ifs
  · exact hadd
  · split
    · exact hadd
    · dsimp only
      split_ifs
      · exact hadd
      · exact (tame_queuePreq w₂ mda true false env.mallocPreq).sound hadd

theorem SoundBut.nexthopResolve {mda msa : MacAddr} {mode : MeshFrameMode} {env : MeshEnv}
    (h : Sound w) (hclear : Clear w mda w.mpaths env.mallocPath) :
    Sound (rtwMeshNexthopResolve w mda msa mode env) := by
  have hnext : Calm w { w with nextFrame := w.nextFrame + 1 } := calm_of_paths rfl rfl
  have hlookup := hnext.tame.trans (tame_nexthopLookup _ mda msa env)
  have hclear := hlookup.clear_next hclear
  unfold rtwMeshNexthopResolve
  dsimp only
  generalize rtwMeshNexthopLookup _ mda msa env = r at hlookup hclear ⊢
  obtain ⟨nextHop, w₁⟩ := r
  have hresolving := (hlookup.sound h).startResolving hclear
  dsimp only at hlookup hresolving ⊢
  generalize Mesh.startResolving w₁ mda env = r at hresolving ⊢
  obtain ⟨ok, w₂⟩ := r
  dsimp only at hresolving ⊢
  split_ifs
  · exact hlookup.sound h
  · exact hresolving.calm (calm_of_paths rfl rfl)
  · exact hresolving.calm ((calm_enqueueFrame w₂ mda _).trans (calm_of_paths rfl rfl))

theorem SoundBut.rxNexthopResolve {mda msa : MacAddr} {env : MeshEnv} (h : Sound w)
    (hclear : Clear w mda w.mpaths env.mallocPath) :
    Sound (rtwMeshRxNexthopResolve w mda msa env) := by
  have hlookup := tame_nexthopLookup w mda msa env
  have hclear := hlookup.clear_next hclear
  unfold rtwMeshRxNexthopResolve
  dsimp only
  generalize rtwMeshNexthopLookup w mda msa env = r at hlookup hclear ⊢
  obtain ⟨nextHop, w₁⟩ := r
  dsimp only at hlookup hclear ⊢
  split_ifs
  · exact hlookup.sound h
  · exact (hlookup.sound h).startResolving hclear

theorem SoundBut.lookup_add {malloc : Bool} (h : Sound w) (hclear : Clear w dst w.mpaths malloc) :
    Sound (if (rtwMeshPathLookup w dst).1.isSome then (rtwMeshPathLookup w dst).2
      else (rtwMeshPathAdd (rtwMeshPathLookup w dst).2 dst malloc).2) := by
  have hlookup := (calm_lookup w dst).tame
  have hclear := hlookup.clear_next hclear
  split_ifs
  · exact hlookup.sound h
  · exact (hlookup.sound h).add_clear hclear

theorem SoundBut.akaChk {target : MacAddr} {env : MeshEnv} (h : Sound w)
    (hclear : Clear w target w.mpaths env.mallocPath) : Sound (issueAkaChkFrame w target env) := by
  have hadd := h.lookup_add hclear
  unfold issueAkaChkFrame
  dsimp only
  generalize (if (rtwMeshPathLookup w target).1.isSome then _ else _) = w₁ at hadd ⊢
  split
  · exact hadd
  · split_ifs
    · exact hadd
    · exact (tame_queuePreq w₁ target true false env.mallocPreq).sound hadd

theorem SoundBut.rann {hop : LastHop} {e : RannElem} {env : MeshEnv} (h : Sound w)
    (hclear : Clear w e.addr w.mpaths env.mallocPath) :
    Sound (rtwHwmpRannFrameProcess w hop e env) := by
  have hadd := h.lookup_add hclear
  unfold rtwHwmpRannFrameProcess
  by_cases hself : e.addr = w.cfg.macAddr
  · rw [if_pos hself]
    exact h
  · rw [if_neg hself]
    dsimp only
    generalize (if (rtwMeshPathLookup w e.addr).1.isSome then _ else _) = w₁ at hadd ⊢
    split
    · exact hadd
    · split_ifs
      · exact hadd
      · refine SoundBut.calm ?_ (calm_setGate _ _ _ _)
        refine SoundBut.calm ?_ (calm_mapPath fun _ => rfl)
        refine SoundBut.calm ?_ (calm_mapPath fun _ => rfl)
        exact (tame_queuePreq w₁ e.addr true true env.mallocPreq).sound hadd
      · refine SoundBut.calm ?_ (calm_setGate _ _ _ _)
        exact hadd.calm (calm_mapPath fun _ => rfl)

theorem SoundBut.learned {malloc : Bool} {fresh : Mpath → Bool} {update : MeshInfo → MeshInfo}
    {w w' : MeshInfo} (h : Sound w) (hclear : Clear w dst w.mpaths malloc)
    (hlearned : Learned w dst malloc fresh update w') (hupdate : ∀ w, Calm w (update w)) :
    Sound w' := by
  have hlookup := (calm_lookup w dst).tame
  have hadd := (hlookup.sound h).add_clear (hlookup.clear_next hclear)
  cases hlearned with
  | left => exact hlookup.sound h
  | updated p hp hfresh => exact (hlookup.sound h).calm (hupdate _)
  | refused => exact hadd
  | made hp => exact hadd.calm (hupdate _)

theorem SoundBut.originatorInfo {hop : LastHop} {r : RouteInfo} {malloc : Bool} (h : Sound w)
    (hclear : Clear w r.originator w.mpaths malloc) :
    Sound (originatorInfo w hop r malloc).2 := by
  by_cases hself : r.originator = w.cfg.macAddr
  · rw [Mesh.originatorInfo, if_pos hself]
    exact h
  · exact h.learned hclear (learned_originator hself) fun _ =>
      calm_updatePath _ _ _ _ fun _ => rfl

theorem SoundBut.transmitterInfo {hop : LastHop} {r : RouteInfo} {malloc : Bool} (h : Sound w)
    (hclear : r.originator ≠ hop.ta → Clear w hop.ta w.mpaths malloc) :
    Sound (transmitterInfo w hop r malloc).2 := by
  by_cases hself : r.originator = hop.ta
  · rw [Mesh.transmitterInfo, if_pos hself]
    exact h
  · exact h.learned (hclear hself) (learned_transmitter hself) fun _ =>
      calm_updatePath _ _ _ _ fun _ => rfl

theorem originatorInfo_next {w : MeshInfo} (hop : LastHop) (r : RouteInfo) (malloc : Bool)
    (dst : MacAddr) (hok : (originatorInfo w hop r malloc).1.ok = true)
    (hdst : dst ≠ r.originator) :
    ((originatorInfo w hop r malloc).2.paths dst = none ↔ w.paths dst = none) ∧
      (originatorInfo w hop r malloc).2.preqQueue = w.preqQueue ∧
      (originatorInfo w hop r malloc).2.cfg = w.cfg ∧
      ((r.originator = w.cfg.macAddr ∨ w.paths r.originator ≠ none) ∧
          (originatorInfo w hop r malloc).2.mpaths = w.mpaths ∨
        Makes w r.originator w.mpaths malloc ∧
          (originatorInfo w hop r malloc).2.mpaths = w.mpaths + 1) := by
  have hlookup := calm_lookup w r.originator
  have hpath : (rtwMeshPathLookup w r.originator).1 =
    (rtwMeshPathLookup w r.originator).2.paths r.originator := rfl
  have hadded := pathAdd_cases (rtwMeshPathLookup w r.originator).2 r.originator malloc
  revert hok
  unfold Mesh.originatorInfo
  dsimp only
  by_cases hself : r.originator = w.cfg.macAddr
  · rw [if_pos hself]
    exact fun _ => ⟨Iff.rfl, rfl, rfl, .inl ⟨.inl hself, rfl⟩⟩
  rw [if_neg hself]
  generalize rtwMeshPathLookup w r.originator = x at hlookup hpath hadded ⊢
  obtain ⟨path, w₁⟩ := x
  dsimp only at hlookup hpath hadded ⊢
  have hupdate (w₂ : MeshInfo) (sta : MacAddr) (expTime : ℕ) (f : Mpath → Mpath) :
      (updatePath w₂ r.originator sta expTime f).paths dst = w₂.paths dst :=
    Function.update_of_ne hdst _ _
  split
  next _ p =>
    have hsome : w.paths r.originator ≠ none := by
      rw [Ne, ← hlookup.paths_eq_none, ← hpath]
      exact Option.some_ne_none p
    intro _
    dsimp only
    refine ⟨?_, ?_, ?_, .inl ⟨.inr hsome, ?_⟩⟩ <;> split_ifs
    · rw [hupdate]
      exact hlookup.paths_eq_none dst
    · exact hlookup.paths_eq_none dst
    all_goals first | exact hlookup.preqQueue | exact hlookup.cfg | exact hlookup.mpaths
  next hnone =>
    rcases hadded with ⟨hfail, -⟩ | ⟨hadd, hmakes⟩
    · generalize rtwMeshPathAdd w₁ r.originator malloc = y at hfail ⊢
      obtain ⟨ok, w₂⟩ := y
      obtain rfl := hfail
      exact fun hok => absurd hok Bool.false_ne_true
    · rw [hadd]
      intro _
      have hmakes := hmakes hpath.symm
      rw [if_pos hpath.symm]
      dsimp only
      refine ⟨?_, hlookup.preqQueue, hlookup.cfg, .inr ⟨?_, ?_⟩⟩
      · rw [if_pos rfl, hupdate]
        dsimp only
        rw [Function.update_of_ne hdst]
        exact hlookup.paths_eq_none dst
      · obtain ⟨-, -, hmake⟩ := hmakes
        refine ⟨(hlookup.paths_eq_none _).mp hpath.symm, hself, ?_⟩
        rw [← hlookup.mpaths]
        exact hmake
      · exact congrArg (· + 1) hlookup.mpaths

theorem SoundBut.routeInfoGet {hop : LastHop} {r : RouteInfo} {malloc malloc' : Bool}
    (h : Sound w) (hclear : RouteClear w hop r malloc malloc') :
    Sound (rtwHwmpRouteInfoGet w hop r malloc malloc').2 := by
  obtain ⟨horiginator, htransmitter⟩ := hclear
  have hsound : Sound (Mesh.originatorInfo w hop r malloc).2 := h.originatorInfo horiginator
  have hnext := originatorInfo_next (w := w) hop r malloc
  unfold rtwHwmpRouteInfoGet
  dsimp only
  generalize Mesh.originatorInfo w hop r malloc = x at hsound hnext ⊢
  have hfresh := calm_sendFresh x r.originator
  by_cases hok : x.1.ok = true
  · rw [if_neg (by simp [hok])]
    dsimp only
    refine SoundBut.calm ?_ (calm_sendFresh _ hop.ta)
    refine (hsound.calm hfresh).transmitterInfo fun hne => hfresh.tame.clear_next ?_
    obtain ⟨hpaths, hqueue, hcfg, hmade⟩ := hnext hop.ta hok (Ne.symm hne)
    have hnodes : nodes x.2 hop.ta = nodes w hop.ta := congrArg (List.filter _) hqueue
    rintro ⟨hnone, hself, hmcast, hmax, hmalloc⟩
    rw [hpaths] at hnone
    rw [hcfg] at hself
    rw [hnodes]
    rcases hmade with ⟨hhad, hmpaths⟩ | ⟨hmade, hmpaths⟩
    · rw [hmpaths] at hmax
      exact (htransmitter hne).1 hhad ⟨hnone, hself, hmcast, hmax, hmalloc⟩
    · rw [hmpaths] at hmax
      exact (htransmitter hne).2 hmade ⟨hnone, hself, hmcast, hmax, hmalloc⟩
  · rw [if_pos (by simp [hok])]
    exact hsound.calm hfresh

theorem SoundBut.pathDel (h : Sound w) (dst : MacAddr) : Sound (rtwMeshPathDel' w dst) := by
  unfold rtwMeshPathDel'
  split
  · exact h
  · have hflush := h.calm ((calm_gateDel w dst).trans (calm_flushPending _ dst))
    refine ⟨fun d p _ hp => ?_, hflush.len, hflush.bound⟩
    dsimp only at hp
    by_cases hd : d = dst
    · subst hd
      rw [paths_setPath] at hp
      cases hp
    · rw [paths_setPath_of_ne hd] at hp
      exact hflush.path d p not_false hp

theorem SoundBut.deleteWhere (h : Sound w) (f : Mpath → Bool) (walk : List MacAddr) :
    Sound (deleteWhere f w walk) := by
  refine List.foldlRecOn walk _ h fun w h dst _ => ?_
  split_ifs
  · exact h.pathDel dst
  · exact h

theorem SoundBut.expirePath (h : Sound w) (malloc : MacAddr → Bool) (dst : MacAddr) :
    Sound (expirePath malloc w dst) := by
  unfold Mesh.expirePath
  split
  · exact h
  next p hp =>
    split_ifs
    · exact h.pathDel dst
    · exact h.calm (calm_gateDel w dst)
    · refine (tame_queuePreq _ dst true true (malloc dst)).sound (h.calm ?_)
      exact calm_setPath hp rfl
    · exact h

theorem SoundBut.fixPath (h : SoundBut (· = dst) w) (nextHop : MacAddr) :
    Sound (fixPath w dst nextHop) := by
  unfold Mesh.fixPath mapPath
  cases hp : w.paths dst with
  | none =>
    refine ⟨fun d p _ hd => ?_, h.len, h.bound⟩
    by_cases hdst : d = dst
    · subst hdst
      rw [paths_setPath] at hd
      cases hd
    · rw [paths_setPath_of_ne hdst] at hd
      exact h.path d p hdst hd
  | some p =>
    refine h.setPath ⟨fun _ => rfl, fun hfixed => ?_, fun hres => ?_⟩
    · cases hfixed
    · cases hres

theorem mapPath_of_paths (h : w.paths dst = some p) (f : Mpath → Mpath) :
    w.mapPath dst f = w.setPath dst (some (f p)) := by
  rw [mapPath, h, Option.map_some]

@[simp] theorem mapPath_setPath (w : MeshInfo) (dst : MacAddr) (p : Mpath) (f : Mpath → Mpath) :
    (w.setPath dst (some p)).mapPath dst f = w.setPath dst (some (f p)) := by
  simp [mapPath, setPath]

theorem SoundBut.sendPreq (h : SoundBut (· = dst) w)
    (hp : View.Sound { view p with timer := true } (nodes w dst))
    (hsend : w.cfg.elementTtl ≠ 0 ∨ p.timer = true) :
    Sound (sendPreq (w.setPath dst (some p)) dst) := by
  have hsent : SoundBut (· = dst) { w with lastPreq := w.now } := h.calm (calm_of_paths rfl rfl)
  unfold Mesh.sendPreq
  dsimp only
  by_cases httl : (w.setPath dst (some p)).cfg.elementTtl = 0
  · rw [if_pos httl]
    refine hsent.setPath (p := p) ?_
    have htimer := hsend.resolve_left (not_not_intro httl)
    have hview : view p = { view p with timer := true } := by
      rw [← htimer]
      rfl
    rw [hview]
    exact hp
  · rw [if_neg httl]
    change Sound (({ w with lastPreq := w.now }.setPath dst (some p)).mapPath dst _)
    rw [mapPath_setPath]
    exact hsent.setPath hp

theorem lookup_of_paths (h : w.paths dst = some p) :
    ∃ q active, rtwMeshPathLookup w dst = (some q, w.setPath dst (some q)) ∧
      q.timer = p.timer ∧ q.flags = { p.flags with active := active } := by
  unfold rtwMeshPathLookup
  dsimp only
  rw [mapPath_of_paths h, paths_setPath]
  refine ⟨_, if p.expired w.now then false else p.flags.active, rfl, ?_, ?_⟩
  all_goals split_ifs <;> rfl

/-- A path without a request. -/
theorem View.Sound.served {v : View} (hfixed : v.fixed = true → v.resolving = false)
    (hq : v.reqQueued = false) (hres : v.resolving = true → v.timer = true) : v.Sound [] where
  fixed := hfixed
  queued _ := .inr ⟨hq, rfl⟩
  resolving h := .inl (hres h)

/-- **A request is served**: its path has no other one, and is looked for with a timer if it is
looked for at all. -/
theorem SoundBut.discoverPath {node : PreqNode} (h : SoundBut (· = node.dst) w)
    (hpopped : ∀ p, w.paths node.dst = some p → (view p).Sound (node :: nodes w node.dst))
    (hsend : ∀ p, w.paths node.dst = some p → sends p node = true →
      w.cfg.elementTtl ≠ 0 ∨ p.timer = true) :
    Sound (discoverPath w node) := by
  unfold Mesh.discoverPath
  cases hp : w.paths node.dst with
  | none =>
    have hnone : Calm w (rtwMeshPathLookup w node.dst).2 := calm_lookup w node.dst
    have hp₁ := (hnone.paths_eq_none node.dst).mpr hp
    have hlookup : rtwMeshPathLookup w node.dst = (none, (rtwMeshPathLookup w node.dst).2) :=
      Prod.ext hp₁ rfl
    have h₁ := h.calm hnone
    rw [hlookup]
    dsimp only
    refine ⟨fun d q _ hq => h₁.path d q ?_ hq, h₁.len, h₁.bound⟩
    rintro rfl
    rw [hp₁] at hq
    cases hq
  | some p =>
    obtain ⟨q, active, hlookup, htimer, hflags⟩ := lookup_of_paths hp
    have hold := hpopped p hp
    have hsend := hsend p hp
    rw [hlookup]
    dsimp only
    have hview : view q = view p := by rw [view, view, hflags, htimer]
    rw [← hview] at hold
    by_cases hfixed : q.flags.fixed = true
    · rw [if_pos hfixed]
      refine h.setPath ⟨hold.fixed, fun hnot => ?_, fun hres => ?_⟩
      · exact absurd hfixed (ne_true_of_eq_false hnot)
      · exact absurd hres (ne_true_of_eq_false (hold.fixed hfixed))
    rw [if_neg hfixed, mapPath_setPath]
    have hnil : nodes w node.dst = [] := by
      rcases hold.queued (Bool.eq_false_iff.mpr hfixed) with ⟨-, hlen⟩ | ⟨-, hcons⟩
      · exact List.length_eq_zero_iff.mp (Nat.succ.inj hlen)
      · cases hcons
    by_cases hstart : node.start = true
    · rw [if_pos hstart]
      by_cases hres : q.flags.resolving = true
      · rw [if_pos hres]
        refine h.setPath ?_
        rw [hnil] at hold ⊢
        refine .served hold.fixed rfl fun _ => ?_
        -- what begins a discovery does not go on with one: the timer does
        refine (hold.resolving hres).resolve_right ?_
        rintro ⟨n, hn, hgoes⟩
        rw [List.mem_singleton.mp hn, hstart] at hgoes
        cases hgoes
      · rw [if_neg hres, mapPath_setPath]
        refine h.sendPreq ?_ ?_
        · rw [hnil]
          exact .served (fun hfix => absurd hfix hfixed) rfl fun _ => rfl
        · refine (hsend ?_).imp_right fun ht => htimer.trans ht
          rw [hflags] at hfixed hres
          simp_all [sends]
    · rw [if_neg hstart]
      by_cases hdone : (!q.flags.resolving) = true ∨ q.flags.resolved = true
      · rw [if_pos hdone, mapPath_setPath]
        refine h.setPath ?_
        rw [hnil]
        exact .served (fun _ => rfl) rfl fun hres => absurd hres Bool.false_ne_true
      · rw [if_neg hdone]
        refine h.sendPreq ?_ ?_
        · rw [hnil]
          exact .served (fun hfix => absurd hfix hfixed) rfl fun _ => rfl
        · refine (hsend ?_).imp_right fun ht => htimer.trans ht
          rw [hflags] at hfixed hdone
          simp_all [sends]

theorem SoundBut.startDiscovery (h : Sound w) (hclear : SendClear w) :
    Sound (rtwMeshPathStartDiscovery w) := by
  unfold rtwMeshPathStartDiscovery
  by_cases hwait : w.preqQueueLen = 0 ∨ w.now < w.lastPreq + w.cfg.minPreqInt
  · rw [if_pos hwait]
    exact h
  rw [if_neg hwait]
  rw [not_or, not_lt] at hwait
  split
  · exact h
  next node rest hqueue =>
    have hnodes (d : MacAddr) : nodes w d =
        (if node.dst = d then [node] else []) ++ nodes { w with preqQueue := rest } d := by
      unfold nodes
      rw [hqueue, List.filter_cons]
      by_cases hd : node.dst = d <;> simp [hd]
    refine SoundBut.discoverPath ⟨fun d p hd hp => ?_, ?_, ?_⟩ (fun p hp => ?_)
      fun p hp hsends => ?_
    · change (view p).Sound (nodes { w with preqQueue := rest } d)
      have hold := h.path d p not_false hp
      rw [hnodes, if_neg (Ne.symm hd), List.nil_append] at hold
      exact hold
    · rw [h.len, hqueue]
      rfl
    · exact (Nat.sub_le _ _).trans h.bound
    · change (view p).Sound (node :: nodes { w with preqQueue := rest } node.dst)
      have hold := h.path node.dst p not_false hp
      rw [hnodes, if_pos rfl, List.singleton_append] at hold
      exact hold
    · exact hclear hwait.1 hwait.2 node (by rw [hqueue]; rfl) p hp hsends

/-- **The timer goes on** with a request, or gives the path up. -/
theorem SoundBut.timer {malloc : Bool} (h : Sound w) (hclear : TimerClear w dst malloc) :
    Sound (rtwMeshPathTimer w dst malloc) := by
  have hbut : SoundBut (· = dst) w := h.mono fun _ => False.elim
  unfold rtwMeshPathTimer
  cases hp : w.paths dst with
  | none => exact h
  | some p =>
    have hold := h.path dst p not_false hp
    dsimp only
    by_cases hdone : p.flags.resolved = true ∨ (!p.flags.resolving) = true
    · rw [if_pos hdone]
      refine hbut.setPath ⟨fun _ => rfl, hold.queued, fun hres => ?_⟩
      exact absurd hres Bool.false_ne_true
    rw [if_neg hdone]
    rw [not_or, Bool.not_eq_true, Bool.not_eq_true, Bool.not_eq_false'] at hdone
    obtain ⟨hresolved, hres⟩ := hdone
    obtain ⟨hq, hretry⟩ := hclear p hp hres hresolved
    have hfixed : p.flags.fixed = false := by
      by_contra hfix
      exact absurd hres (ne_true_of_eq_false (hold.fixed (Bool.of_not_eq_false hfix)))
    have hnil : nodes w dst = [] := by
      rcases hold.queued hfixed with ⟨hq', -⟩ | ⟨-, hnil⟩
      · exact absurd hq' (ne_true_of_eq_false hq)
      · exact hnil
    by_cases hmore : p.discoveryRetries < w.cfg.maxPreqRetries
    · rw [if_pos hmore]
      obtain ⟨rfl, hfull⟩ := hretry hmore
      refine (hbut.forget _).queuePreq (paths_setPath ..) rfl hfull ?_
      change View.Sound _ (nodes w dst ++ _)
      rw [hnil]
      exact ⟨fun hfix => absurd hfix (ne_true_of_eq_false hfixed), fun _ => .inl ⟨rfl, rfl⟩,
        fun _ => .inr ⟨_, List.mem_singleton_self _, rfl⟩⟩
    · rw [if_neg hmore]
      have hgiven : Sound (w.setPath dst (some
          { p.mapFlags fun s =>
              { s with resolving := false, resolved := false, reqQueued := false } with
            timer := false, expTime := w.now })) := by
        refine hbut.setPath ?_
        rw [hnil]
        exact .served (fun _ => rfl) rfl fun hres => absurd hres Bool.false_ne_true
      split_ifs
      · exact hgiven.calm (calm_sendToGates _ dst)
      · exact hgiven.calm (calm_flushPending _ dst)

/-! ## Steps and runs -/

theorem SoundBut.elapse (h : Sound w) (ticks : ℕ) : Sound { w with now := w.now + ticks } :=
  h.calm (calm_of_paths rfl rfl)

theorem SoundBut.addMpath {nextHop : MacAddr} {malloc : Bool} (h : Sound w) :
    Sound (rtwMeshPathFixNexthop (rtwMeshPathAdd w dst malloc).2 dst nextHop) := by
  have hadd := (h.add dst malloc).mono fun _ hd => hd.1
  exact (hadd.fixPath nextHop).calm (calm_txPending _ dst)

theorem SoundBut.changeMpath {nextHop : MacAddr} (h : Sound w) :
    Sound (rtwMeshPathFixNexthop (rtwMeshPathLookup w dst).2 dst nextHop) := by
  have hlookup := h.calm (calm_lookup w dst)
  have hbut : SoundBut (· = dst) (rtwMeshPathLookup w dst).2 := hlookup.mono fun _ => False.elim
  exact (hbut.fixPath nextHop).calm (calm_txPending _ dst)

/-- **A step** that meets its condition. -/
theorem SoundBut.step {e : PreqEvent} (h : Sound w) (hok : DiscoveryOk w e)
    (hstep : preqStep w e = some w') : Sound w' := by
  cases e with
  | queuePreq dst start refresh malloc =>
    obtain rfl := Option.some.inj hstep
    exact (tame_queuePreq w dst start refresh malloc).sound h
  | op e =>
    cases e with
    | timer dst malloc =>
      obtain ⟨-, heq⟩ := Option.ite_none_right_eq_some.mp hstep
      obtain rfl := Option.some.inj heq
      exact h.timer hok
    | addMpath dst nextHop malloc =>
      obtain ⟨-, heq⟩ := Option.ite_none_right_eq_some.mp hstep
      obtain rfl := Option.some.inj heq
      exact h.addMpath
    | elapse ticks =>
      obtain rfl := Option.some.inj hstep
      exact h.elapse ticks
    | nexthopResolve mda msa mode env =>
      obtain rfl := Option.some.inj hstep
      exact h.nexthopResolve hok
    | rxNexthopResolve mda msa env =>
      obtain rfl := Option.some.inj hstep
      exact h.rxNexthopResolve hok
    | akaChk target env =>
      obtain rfl := Option.some.inj hstep
      exact h.akaChk hok
    | preq hop e malloc malloc' =>
      obtain rfl := Option.some.inj hstep
      have hroute := h.routeInfoGet hok
      split_ifs
      · exact hroute.calm (calm_preqProcess _ e)
      · exact hroute
    | prep hop e malloc malloc' =>
      obtain rfl := Option.some.inj hstep
      have hroute := h.routeInfoGet hok
      split_ifs
      · exact hroute.calm (calm_prepProcess _ e)
      · exact hroute
    | perr ta e =>
      obtain rfl := Option.some.inj hstep
      exact h.calm (calm_perr w ta e)
    | rann hop e env =>
      obtain rfl := Option.some.inj hstep
      exact h.rann hok
    | startDiscovery =>
      obtain rfl := Option.some.inj hstep
      exact h.startDiscovery hok
    | mpathTx =>
      obtain rfl := Option.some.inj hstep
      exact h.calm (calm_mpathTx w)
    | pathDel dst =>
      obtain rfl := Option.some.inj hstep
      exact h.pathDel dst
    | plinkBroken sta walk =>
      obtain rfl := Option.some.inj hstep
      exact h.calm (calm_plinkBroken w sta walk)
    | flushByNexthop sta walk =>
      obtain rfl := Option.some.inj hstep
      exact h.deleteWhere _ walk
    | flushByIface walk =>
      obtain rfl := Option.some.inj hstep
      exact h.deleteWhere _ walk
    | pathExpire walk malloc =>
      obtain rfl := Option.some.inj hstep
      exact List.foldlRecOn walk _ h fun w h dst _ => h.expirePath malloc dst
    | changeMpath dst nextHop =>
      obtain rfl := Option.some.inj hstep
      exact h.changeMpath

theorem sound_init (cfg : MeshCfg) : Sound { cfg := cfg } := by
  refine ⟨fun dst p _ hp => ?_, rfl, Nat.zero_le _⟩
  cases hp

/-- **No path gets stuck** on a run whose steps all meet their conditions. -/
theorem settled_of_run (cfg : MeshCfg) {es : List PreqEvent}
    (hok : Meets preqStep DiscoveryOk { cfg := cfg } es)
    (hrun : run preqStep { cfg := cfg } es = some w) : Settled w := by
  have hstep : ∀ w e w', Sound w → DiscoveryOk w e → preqStep w e = some w' → Sound w' :=
    fun w e w' h hok hstep => h.step hok hstep
  exact (run_invariant_of_meets hstep (sound_init cfg) hok hrun).settled

def ownMac : MacAddr := ⟨2, 0, 0, 0, 0, 1⟩

def farMac : MacAddr := ⟨2, 0, 0, 0, 0, 2⟩

def discoveryCfg : MeshCfg := { macAddr := ownMac }

def firstFrame : PreqEvent := .op (.nexthopResolve farMac ownMac .ucastData {})

def answeredRun : List PreqEvent :=
  [.op (.elapse 10), firstFrame, .op .startDiscovery, .op (.timer farMac true), .op (.elapse 10),
    .op .startDiscovery,
    .op (.prep { ta := farMac, metric := 1 }
      { route := { originator := farMac, sn := 1, metric := 1, expTime := 5000 }
        originator := ownMac, ttl := 31, gateReply := false, isGate := false } true true),
    .op (.timer farMac true), .queuePreq farMac true true true]

theorem settled_of_run_answered :
    ∃ w, run preqStep { cfg := discoveryCfg } answeredRun = some w ∧ w.preqQueueLen = 1 ∧
      Settled w := by
  have hok : Meets preqStep DiscoveryOk { cfg := discoveryCfg } answeredRun := by decide +kernel
  obtain ⟨w, hrun, hlen⟩ : ∃ w, run preqStep { cfg := discoveryCfg } answeredRun = some w ∧
      w.preqQueueLen = 1 := exists_run_of_any (by decide +kernel)
  exact ⟨w, hrun, hlen, settled_of_run discoveryCfg hok hrun⟩

/-- There is no memory for the second request. -/
theorem not_settled :
    ¬∀ (cfg : MeshCfg) (es : List PreqEvent) (w : MeshInfo),
      run preqStep { cfg := cfg } es = some w → Settled w := by
  intro hall
  obtain ⟨w, hrun, hstuck, hqueue⟩ : ∃ w, run preqStep { cfg := discoveryCfg }
      [.op (.elapse 10), firstFrame, .op .startDiscovery, .op (.timer farMac false)] = some w ∧
        ((w.paths farMac).any (fun p => p.flags.resolving && !p.timer) = true ∧
          nodes w farMac = []) :=
    exists_run_of_any (by decide +kernel)
  obtain ⟨p, hp, hpath⟩ := (Option.any_eq_true _ _).mp hstuck
  rw [Bool.and_eq_true, Bool.not_eq_true'] at hpath
  rcases (hall discoveryCfg _ w hrun).resolving farMac p hp hpath.1 with htimer | hnode
  · exact absurd htimer (ne_true_of_eq_false hpath.2)
  · exact hnode hqueue

end Rtl88x2eu.Mesh.Discovery
