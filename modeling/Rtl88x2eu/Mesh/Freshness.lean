import Rtl88x2eu.Mesh.Hwmp

/-!
# The freshness of mesh routes

Five operations write the sequence number of a path: an element about its originator, the target of
a request, an error, the announcement of a root and a link that breaks. An element is handled in
parts, and other operations may come between them; a part writes a path at most once. A path whose
time is over is not in use, as every lookup finds.

## Main definitions

* `seenRoute`
* `SameRoutes`, `Kept`: operations that leave the routes as they are
* `RouteWrite`, `RouteLaw`

## Main results

* `stepped_system`: what a step does to the routes
* `exists_again`: what brings a route back that was not in use
* `route_law`: the law holds across every step of every run
-/

namespace Rtl88x2eu.Mesh

open MeshInfo

namespace Freshness

/-! ## What is seen of a path -/

/-- The route of a path, and what says whether it is in use. -/
structure RouteView where
  nextHop : Option MacAddr
  metric : UInt32
  sn : UInt32
  active : Bool
  snValid : Bool
  fixed : Bool
  expTime : ℕ
deriving DecidableEq

def route (p : Mpath) : RouteView :=
  ⟨p.nextHop, p.metric, p.sn, p.flags.active, p.flags.snValid, p.flags.fixed, p.expTime⟩

def RouteView.seen (now : ℕ) (v : RouteView) : RouteView :=
  if v.active && v.expTime < now && !v.fixed then { v with active := false } else v

theorem RouteView.seen_of_inactive {v : RouteView} (h : v.active = false) (now : ℕ) :
    v.seen now = v := by
  rw [seen, h, Bool.false_and, Bool.false_and, if_neg Bool.false_ne_true]

theorem RouteView.seen_seen {now now' : ℕ} (h : now ≤ now') (v : RouteView) :
    (v.seen now).seen now' = v.seen now' := by
  by_cases hexp : (v.active && v.expTime < now && !v.fixed) = true
  · have hseen : v.seen now = { v with active := false } := if_pos hexp
    rw [hseen, seen_of_inactive rfl]
    simp only [Bool.and_eq_true, decide_eq_true_eq] at hexp
    refine (if_pos ?_).symm
    simp only [Bool.and_eq_true, decide_eq_true_eq]
    exact ⟨⟨hexp.1.1, hexp.1.2.trans_le h⟩, hexp.2⟩
  · rw [show v.seen now = v from if_neg hexp]

theorem route_lookup (p : Mpath) (now : ℕ) :
    route (if p.expired now then p.mapFlags fun s => { s with active := false } else p) =
      (route p).seen now := by
  have hexp : p.expired now =
    ((route p).active && decide ((route p).expTime < now) && !(route p).fixed) := rfl
  rw [RouteView.seen, ← hexp]
  split_ifs <;> rfl

variable {w w' w'' : MeshInfo} {dst : MacAddr} {p q : Mpath}

structure SameRoutes (w w' : MeshInfo) : Prop where
  route : ∀ d, (w'.paths d).map Freshness.route = (w.paths d).map Freshness.route
  now : w'.now = w.now

theorem SameRoutes.refl (w : MeshInfo) : SameRoutes w w := ⟨fun _ => rfl, rfl⟩

theorem SameRoutes.trans (h : SameRoutes w w') (h' : SameRoutes w' w'') : SameRoutes w w'' :=
  ⟨fun d => (h'.route d).trans (h.route d), h'.now.trans h.now⟩

theorem paths_setPath (w : MeshInfo) (dst : MacAddr) (o : Option Mpath) (d : MacAddr) :
    (w.setPath dst o).paths d = if d = dst then o else w.paths d := by
  unfold setPath
  by_cases hd : d = dst
  · rw [if_pos hd, hd]
    exact Function.update_self _ _ _
  · rw [if_neg hd]
    exact Function.update_of_ne hd _ _

theorem sameRoutes_setPath (hp : w.paths dst = some p) (hq : route q = route p) :
    SameRoutes w (w.setPath dst (some q)) where
  route d := by
    rw [paths_setPath]
    split_ifs with hd
    · rw [hd, hp, Option.map_some, Option.map_some, hq]
    · rfl
  now := rfl

theorem sameRoutes_mapPath {f : Mpath → Mpath} (hf : ∀ p, route (f p) = route p) :
    SameRoutes w (w.mapPath dst f) where
  route d := by
    rw [mapPath, paths_setPath]
    split_ifs with hd
    · rw [hd, Option.map_map]
      exact congrArg (fun g => (w.paths dst).map g) (funext hf)
    · rfl
  now := rfl

theorem sameRoutes_of_paths (hpaths : w'.paths = w.paths) (hnow : w'.now = w.now) :
    SameRoutes w w' :=
  ⟨fun d => by rw [hpaths], hnow⟩

theorem sameRoutes_queuePreq (w : MeshInfo) (dst : MacAddr) (start refresh malloc : Bool) :
    SameRoutes w (rtwMeshQueuePreq w dst start refresh malloc) := by
  unfold rtwMeshQueuePreq
  split_ifs
  · exact .refl w
  · cases hp : w.paths dst with
    | none => exact .refl w
    | some p =>
      dsimp only
      split_ifs
      · exact .refl w
      · have hqueued : SameRoutes w
            (w.setPath dst (some (p.mapFlags fun s => { s with reqQueued := true }))) :=
          sameRoutes_setPath hp rfl
        exact hqueued.trans (sameRoutes_of_paths rfl rfl)

theorem sameRoutes_addGate (w : MeshInfo) (dst : MacAddr) :
    SameRoutes w (rtwMeshPathAddGate w dst) := by
  unfold rtwMeshPathAddGate
  cases hp : w.paths dst with
  | none => exact .refl w
  | some p =>
    dsimp only
    split_ifs
    · exact sameRoutes_setPath hp rfl
    · refine SameRoutes.trans (sameRoutes_setPath (q := { p with isGate := true, gateTimeout := _ })
        hp rfl) (sameRoutes_of_paths rfl rfl)

theorem sameRoutes_gateDel (w : MeshInfo) (dst : MacAddr) :
    SameRoutes w (rtwMeshGateDel w dst) := by
  unfold rtwMeshGateDel
  cases hp : w.paths dst with
  | none => exact .refl w
  | some p =>
    dsimp only
    split_ifs
    · refine SameRoutes.trans (sameRoutes_setPath (q := { p with isGate := false }) hp rfl)
        (sameRoutes_of_paths rfl rfl)
    · exact .refl w

theorem sameRoutes_setGate (w : MeshInfo) (dst : MacAddr) (gate : Bool) (annInt : ℕ) :
    SameRoutes w (setGate w dst gate annInt) := by
  unfold setGate
  split_ifs
  · refine SameRoutes.trans ?_ (sameRoutes_addGate _ dst)
    exact sameRoutes_mapPath fun _ => rfl
  · exact sameRoutes_gateDel w dst

theorem sameRoutes_drained (hp : w.paths dst = some p) :
    SameRoutes w (w.setPath dst (some { p with frameQueue := [], frameQueueLen := 0 })) :=
  sameRoutes_setPath hp rfl

theorem sameRoutes_txPending (w : MeshInfo) (dst : MacAddr) :
    SameRoutes w (rtwMeshPathTxPending w dst) := by
  unfold rtwMeshPathTxPending
  cases hp : w.paths dst with
  | none => exact .refl w
  | some p =>
    dsimp only
    split_ifs
    · exact (sameRoutes_drained hp).trans (sameRoutes_of_paths rfl rfl)
    · exact .refl w

/-! ## Operations that keep the routes -/

/-- The route of a destination, as a lookup would find it. -/
def seenRoute (w : MeshInfo) (dst : MacAddr) : Option RouteView :=
  (w.paths dst).map fun p => (route p).seen w.now

/-- The operation leaves every route as a lookup would find it. -/
structure Kept (w w' : MeshInfo) : Prop where
  seen : ∀ d v, seenRoute w d = some v → seenRoute w' d = some v
  now : w'.now = w.now

theorem Kept.refl (w : MeshInfo) : Kept w w := ⟨fun _ _ h => h, rfl⟩

theorem SameRoutes.seenRoute (h : SameRoutes w w') (d : MacAddr) :
    seenRoute w' d = seenRoute w d := by
  unfold Freshness.seenRoute
  rw [h.now]
  have hd := congrArg (Option.map (RouteView.seen w.now)) (h.route d)
  rwa [Option.map_map, Option.map_map] at hd

theorem SameRoutes.kept (h : SameRoutes w w') : Kept w w' :=
  ⟨fun d _ hd => (h.seenRoute d).trans hd, h.now⟩

theorem Kept.trans (h : Kept w w') (h' : Kept w' w'') : Kept w w'' :=
  ⟨fun d v hd => h'.seen d v (h.seen d v hd), h'.now.trans h.now⟩

theorem lookup_spec (w : MeshInfo) (dst : MacAddr) :
    ∃ w₁, rtwMeshPathLookup w dst = (w₁.paths dst, w₁) ∧ Kept w w₁ ∧
      ∀ p, w₁.paths dst = some p → (route p).seen w.now = route p := by
  refine ⟨_, rfl, ⟨fun d v hd => ?_, rfl⟩, fun p hp => ?_⟩
  · unfold seenRoute at hd ⊢
    rw [mapPath, paths_setPath]
    split_ifs with heq
    · subst heq
      obtain ⟨p, hp, hv⟩ := Option.map_eq_some_iff.1 hd
      rw [hp, Option.map_some, Option.map_some, route_lookup, ← hv]
      exact congrArg some (RouteView.seen_seen le_rfl _)
    · exact hd
  · rw [mapPath, paths_setPath, if_pos rfl] at hp
    obtain ⟨q, _, hq⟩ := Option.map_eq_some_iff.1 hp
    rw [← hq, route_lookup]
    exact RouteView.seen_seen le_rfl _

theorem kept_lookup (w : MeshInfo) (dst : MacAddr) : Kept w (rtwMeshPathLookup w dst).2 := by
  obtain ⟨w₁, hlookup, hkept, _⟩ := lookup_spec w dst
  rw [hlookup]
  exact hkept

theorem seenRoute_setPath_of_ne {d : MacAddr} (hd : d ≠ dst) (o : Option Mpath) :
    seenRoute (w.setPath dst o) d = seenRoute w d := by
  unfold seenRoute
  rw [paths_setPath, if_neg hd]
  rfl

theorem kept_pathAdd (w : MeshInfo) (dst : MacAddr) (malloc : Bool) :
    Kept w (rtwMeshPathAdd w dst malloc).2 := by
  have hcount : SameRoutes w { w with mpaths := w.mpaths + 1 } := sameRoutes_of_paths rfl rfl
  unfold rtwMeshPathAdd
  split_ifs
  · exact .refl w
  · exact .refl w
  · exact hcount.kept
  · dsimp only
    cases hdst : w.paths dst with
    | some _ => exact hcount.kept
    | none =>
      refine hcount.kept.trans ⟨fun d v hv => ?_, rfl⟩
      have hd : d ≠ dst := by
        rintro rfl
        have hnone : seenRoute { w with mpaths := w.mpaths + 1 } d = none :=
          congrArg (Option.map _) hdst
        exact Option.some_ne_none v (hv.symm.trans hnone)
      exact (seenRoute_setPath_of_ne hd _).trans hv

/-! ## What is written to a route -/

def RouteView.Takes (v : RouteView) (r : RouteInfo) (metric : UInt32) : Prop :=
  if v.active then
    ¬(v.snValid ∧ (rtwSnGt v.sn r.sn ∨ v.sn = r.sn ∧ v.metric ≤ metric))
  else !v.snValid ∨ rtwSnGt r.sn v.sn ∨ rtwMaxSaneSnDelta < rtwSnDelta r.sn v.sn

/-- The parts of operations that write routes. -/
inductive Part
  | originator (h : LastHop) (r : RouteInfo)
  | transmitter (h : LastHop) (r : RouteInfo)
  | target (e : PreqElem)
  | root (e : RannElem)
  | broken

/-- What a part of an operation writes to a route. -/
inductive RouteWrite (dst : MacAddr) (v : RouteView) : Part → RouteView → Prop
  | originator (h : LastHop) (r : RouteInfo) (hdst : r.originator = dst) (hfixed : v.fixed = false)
      (htakes : v.Takes r (newMetric h r)) :
      RouteWrite dst v (.originator h r)
        { v with
          nextHop := some h.ta, metric := newMetric h r, sn := r.sn, active := true, snValid := true
          expTime := max v.expTime r.expTime }
  | transmitter (h : LastHop) (r : RouteInfo) (hdst : h.ta = dst) (hne : r.originator ≠ dst)
      (hfixed : v.fixed = false) :
      RouteWrite dst v (.transmitter h r)
        { v with
          nextHop := some h.ta, metric := h.metric, active := true
          expTime := max v.expTime r.expTime }
  | target (e : PreqElem) (hdst : e.target = dst)
      (h : v.snValid = false ∨ rtwSnLt v.sn e.targetSn) :
      RouteWrite dst v (.target e) { v with sn := e.targetSn, snValid := true }
  | root (e : RannElem) (hdst : e.addr = dst) (h : v.sn = e.seq ∨ rtwSnLt v.sn e.seq) :
      RouteWrite dst v (.root e) { v with sn := e.seq }
  | broken (sn : UInt32) : RouteWrite dst v .broken { v with sn, active := false }

structure Writes (part : Part) (w w' : MeshInfo) : Prop where
  seen : ∀ d v, seenRoute w d = some v →
    ∃ v', seenRoute w' d = some v' ∧ (v' = v ∨ ∃ u, RouteWrite d v part u ∧ v' = u.seen w.now)
  now : w'.now = w.now

section Writes

variable {part : Part}

theorem Kept.writes (h : Kept w w') : Writes part w w' :=
  ⟨fun d v hv => ⟨v, h.seen d v hv, .inl rfl⟩, h.now⟩

theorem Kept.then_writes (h : Kept w w') (h' : Writes part w' w'') : Writes part w w'' where
  seen d v hv := h.now ▸ h'.seen d v (h.seen d v hv)
  now := h'.now.trans h.now

theorem Writes.then_kept (h : Writes part w w') (h' : Kept w' w'') : Writes part w w'' where
  seen d v hv := by
    obtain ⟨v', hv', hwrite⟩ := h.seen d v hv
    exact ⟨v', h'.seen d v' hv', hwrite⟩
  now := h'.now.trans h.now

theorem writes_mapPath {f : Mpath → Mpath}
    (hf : ∀ p, w.paths dst = some p → (route (f p)).seen w.now = (route p).seen w.now ∨
      RouteWrite dst ((route p).seen w.now) part (route (f p))) :
    Writes part w (w.mapPath dst f) where
  seen d v hv := by
    by_cases hd : d = dst
    · subst hd
      obtain ⟨p, hp, hseen⟩ := Option.map_eq_some_iff.1 hv
      subst hseen
      refine ⟨(route (f p)).seen w.now, ?_, ?_⟩
      · rw [mapPath, seenRoute, paths_setPath, if_pos rfl, hp]
        rfl
      · obtain hsame | hwrite := hf p hp
        · exact .inl hsame
        · exact .inr ⟨_, hwrite, rfl⟩
    · exact ⟨v, (seenRoute_setPath_of_ne hd _).trans hv, .inl rfl⟩
  now := rfl

end Writes

theorem takes_of_freshInfo {r : RouteInfo} {metric : UInt32} (h : (freshInfo p r metric).1) :
    (route p).fixed = false ∧ (route p).Takes r metric := by
  unfold freshInfo at h
  split_ifs at h with hfixed hactive htakes htakes
  · refine ⟨eq_false_of_ne_true hfixed, ?_⟩
    have hactive' : (route p).active := hactive
    rw [RouteView.Takes, if_pos hactive']
    exact htakes
  · refine ⟨eq_false_of_ne_true hfixed, ?_⟩
    have hactive' : ¬(route p).active := hactive
    rw [RouteView.Takes, if_neg hactive']
    exact htakes

theorem kept_mapPath_new (hnone : w.paths dst = none) (h : Kept w w') (f : Mpath → Mpath) :
    Kept w (w'.mapPath dst f) where
  seen d v hv := by
    have hd : d ≠ dst := by
      rintro rfl
      have hv' : seenRoute w d = none := congrArg (Option.map _) hnone
      exact Option.some_ne_none v (hv.symm.trans hv')
    exact (seenRoute_setPath_of_ne hd _).trans (h.seen d v hv)
  now := h.now

theorem writes_learned {part : Part} {malloc : Bool} {fresh : Mpath → Bool} {sta : MacAddr}
    {expTime : ℕ} {f : Mpath → Mpath}
    (hf : ∀ p, fresh p → RouteWrite dst (route p) part
      (route { f (p.assignNexthop sta) with expTime := max p.expTime expTime }.activate))
    (h : Learned w dst malloc fresh (fun w => updatePath w dst sta expTime f) w') :
    Writes part w w' := by
  obtain ⟨w₁, hlookup, hkept, hseen⟩ := lookup_spec w dst
  obtain rfl : (rtwMeshPathLookup w dst).2 = w₁ := congrArg Prod.snd hlookup
  have hadd := kept_pathAdd (rtwMeshPathLookup w dst).2 dst malloc
  cases h with
  | left => exact hkept.writes
  | updated p hp hfresh =>
    refine hkept.then_writes (writes_mapPath fun q hq => .inr ?_)
    rw [hkept.now, hseen q hq]
    obtain rfl := Option.some.inj (hp.symm.trans hq)
    exact hf p hfresh
  | refused => exact (hkept.trans hadd).writes
  | made hp => exact hkept.then_writes (kept_mapPath_new hp hadd _).writes

theorem writes_originatorInfo (w : MeshInfo) (h : LastHop) (r : RouteInfo) (malloc : Bool) :
    Writes (.originator h r) w (originatorInfo w h r malloc).2 := by
  by_cases hown : r.originator = w.cfg.macAddr
  · rw [originatorInfo, if_pos hown]
    exact (Kept.refl w).writes
  · refine writes_learned (fun p hfresh => ?_) (learned_originator hown)
    obtain ⟨hfixed, htakes⟩ := takes_of_freshInfo hfresh
    exact .originator h r rfl hfixed htakes

theorem writes_transmitterInfo (w : MeshInfo) (h : LastHop) (r : RouteInfo) (malloc : Bool) :
    Writes (.transmitter h r) w (transmitterInfo w h r malloc).2 := by
  by_cases hta : r.originator = h.ta
  · rw [transmitterInfo, if_pos hta]
    exact (Kept.refl w).writes
  · refine writes_learned (fun p hfresh => ?_) (learned_transmitter hta)
    rw [Bool.not_eq_true', Bool.or_eq_false_iff] at hfresh
    exact .transmitter h r rfl hta hfresh.1

theorem writes_preq (w : MeshInfo) (e : PreqElem) :
    Writes (.target e) w (rtwHwmpPreqFrameProcess w e) := by
  unfold rtwHwmpPreqFrameProcess
  split_ifs with hown hbcast
  · exact (Kept.refl w).writes
  · exact ((kept_lookup w _).trans (sameRoutes_setGate _ _ _ _).kept).writes
  · obtain ⟨w₁, hlookup, hkept, hseen⟩ := lookup_spec w e.target
    rw [hlookup]
    refine hkept.then_writes (writes_mapPath fun p hp => ?_)
    rw [hkept.now, hseen p hp]
    split_ifs with hsn
    · right
      rw [Bool.not_eq_true'] at hsn
      exact .target e rfl hsn
    · exact .inl (hseen p hp)

theorem kept_prep (w : MeshInfo) (e : PrepElem) : Kept w (rtwHwmpPrepFrameProcess w e) := by
  unfold rtwHwmpPrepFrameProcess
  by_cases hown : e.originator = w.cfg.macAddr
  · rw [if_pos hown]
    have hlookup := kept_lookup w e.route.originator
    generalize rtwMeshPathLookup w e.route.originator = x at hlookup ⊢
    obtain ⟨path, w₁⟩ := x
    dsimp only at hlookup ⊢
    have hasked : SameRoutes w₁
        (w₁.mapPath e.route.originator fun p => { p with gateAsked := false }) :=
      sameRoutes_mapPath fun _ => rfl
    split_ifs
    · exact hlookup.trans hasked.kept
    · exact hlookup.trans (hasked.trans (sameRoutes_gateDel _ _)).kept
    · exact hlookup
  · rw [if_neg hown]
    split_ifs
    · exact .refl w
    · exact kept_lookup w e.originator

theorem broken_seen (now : ℕ) (p : Mpath) (sn : UInt32) :
    RouteWrite dst ((route p).seen now) .broken { route p with sn, active := false } := by
  have hwrite : RouteWrite dst ((route p).seen now) .broken
      { (route p).seen now with sn, active := false } := .broken sn
  rw [RouteView.seen] at hwrite ⊢
  split_ifs at hwrite ⊢ <;> exact hwrite

theorem writes_perr (w : MeshInfo) (ta : MacAddr) (e : PerrElem) :
    Writes .broken w (rtwHwmpPerrFrameProcess w ta e) := by
  unfold rtwHwmpPerrFrameProcess
  by_cases httl : e.ttl ≤ 1
  · rw [if_pos httl]
    exact (Kept.refl w).writes
  · rw [if_neg httl]
    refine (kept_lookup w e.target).then_writes (writes_mapPath fun p _ => ?_)
    split
    · exact .inr (broken_seen _ p _)
    · exact .inl rfl

theorem writes_root {e : RannElem} (hp : w.paths e.addr = some p)
    (hseen : (route p).seen w.now = route p) (hsn : p.sn = e.seq ∨ rtwSnLt p.sn e.seq)
    (h : SameRoutes w w') (metric : UInt32) :
    Writes (.root e) w (w'.mapPath e.addr fun p =>
      { p with sn := e.seq, rannMetric := metric, isRoot := true }) := by
  refine h.kept.then_writes (writes_mapPath fun q hq => .inr ?_)
  have hd := h.route e.addr
  rw [hp, hq, Option.map_some, Option.map_some, Option.some.injEq] at hd
  rw [h.now, hd, hseen, ← hd]
  refine .root e rfl ?_
  rw [hd]
  exact hsn

theorem kept_pathAdd_new (h : Kept w w') (hseen : ∀ p, w'.paths dst = some p →
      (route p).seen w.now = route p) (malloc : Bool) :
    ∃ w₂, (if (w'.paths dst).isSome then w' else (rtwMeshPathAdd w' dst malloc).2) = w₂ ∧
      Kept w w₂ ∧ ∀ p, w₂.paths dst = some p → (route p).seen w.now = route p := by
  refine ⟨_, rfl, ?_⟩
  cases hp : w'.paths dst with
  | some p =>
    rw [if_pos (Option.isSome_some)]
    exact ⟨h, hseen⟩
  | none =>
    rw [if_neg (by simp)]
    refine ⟨h.trans (kept_pathAdd w' dst malloc), fun p hp' => ?_⟩
    -- The new path is not in use.
    have hnew : p.flags.active = false := by
      unfold rtwMeshPathAdd at hp'
      split_ifs at hp'
      · rw [hp] at hp'
        contradiction
      · rw [hp] at hp'
        contradiction
      · have hp'' : w'.paths dst = some p := hp'
        rw [hp] at hp''
        contradiction
      · dsimp only at hp'
        rw [hp] at hp'
        dsimp only at hp'
        rw [paths_setPath, if_pos rfl] at hp'
        obtain rfl := Option.some.inj hp'
        rfl
    exact RouteView.seen_of_inactive hnew w.now

theorem writes_rann (w : MeshInfo) (h : LastHop) (e : RannElem) (env : MeshEnv) :
    Writes (.root e) w (rtwHwmpRannFrameProcess w h e env) := by
  unfold rtwHwmpRannFrameProcess
  by_cases hown : e.addr = w.cfg.macAddr
  · rw [if_pos hown]
    exact (Kept.refl w).writes
  · rw [if_neg hown]
    obtain ⟨w₁, hlookup, hkept, hseen⟩ := lookup_spec w e.addr
    rw [hlookup]
    dsimp only
    obtain ⟨w₂, hw₂, hthere, hseen⟩ := kept_pathAdd_new hkept hseen env.mallocPath
    rw [hw₂]
    cases hp : w₂.paths e.addr with
    | none => exact hthere.writes
    | some p =>
      dsimp only
      split
      · exact hthere.writes
      next hfresh =>
        have hsn : p.sn = e.seq ∨ rtwSnLt p.sn e.seq := by
          by_contra hnot
          obtain ⟨hne, hlt⟩ := not_or.1 hnot
          exact hfresh ⟨by simpa using hlt, by simp [hne]⟩
        refine hthere.then_writes (Writes.then_kept ?_ (sameRoutes_setGate _ _ _ _).kept)
        refine writes_root hp (hthere.now ▸ hseen p hp) hsn ?_ _
        split
        · refine (sameRoutes_queuePreq w₂ e.addr true true env.mallocPreq).trans ?_
          exact sameRoutes_mapPath fun _ => rfl
        · exact .refl w₂

theorem Writes.broken_trans (h : Writes .broken w w') (h' : Writes .broken w' w'') :
    Writes .broken w w'' where
  seen d v hv := by
    obtain ⟨v', hv', rfl | ⟨u, hbroken, rfl⟩⟩ := h.seen d v hv
    · exact h.now ▸ h'.seen d v' hv'
    · obtain ⟨⟩ := hbroken
      rw [RouteView.seen_of_inactive rfl] at hv'
      obtain ⟨v'', hv'', rfl | ⟨u, hagain, rfl⟩⟩ := h'.seen d _ hv'
      · exact ⟨_, hv'', .inr ⟨_, .broken _, (RouteView.seen_of_inactive rfl _).symm⟩⟩
      · obtain ⟨⟩ := hagain
        exact ⟨_, hv'', .inr ⟨_, .broken _, by rw [h.now]⟩⟩
  now := h'.now.trans h.now

theorem writes_plinkBroken (w : MeshInfo) (sta : MacAddr) (walk : List MacAddr) :
    Writes .broken w (rtwMeshPlinkBroken w sta walk) := by
  unfold rtwMeshPlinkBroken
  induction walk generalizing w with
  | nil => exact (Kept.refl w).writes
  | cons dst walk ih =>
    refine Writes.broken_trans ?_ (ih _)
    refine writes_mapPath fun p _ => ?_
    split
    · exact .inr (broken_seen _ p _)
    · exact .inl rfl

def Pulled (w w' : MeshInfo) : Prop :=
  ∀ d v, seenRoute w' d = some v → seenRoute w d = some v

theorem SameRoutes.pulled (h : SameRoutes w w') : Pulled w w' :=
  fun d _ hv => (h.seenRoute d).symm.trans hv

theorem Pulled.trans (h : Pulled w w') (h' : Pulled w' w'') : Pulled w w'' :=
  fun d v hv => h d v (h' d v hv)

theorem pulled_pathDel (w : MeshInfo) (dst : MacAddr) : Pulled w (rtwMeshPathDel' w dst) := by
  unfold rtwMeshPathDel'
  cases hp : w.paths dst with
  | none => exact (SameRoutes.refl w).pulled
  | some p =>
    have hflush : SameRoutes w (rtwMeshPathFlushPending (rtwMeshGateDel w dst) dst) := by
      refine (sameRoutes_gateDel w dst).trans ?_
      unfold rtwMeshPathFlushPending
      cases hq : (rtwMeshGateDel w dst).paths dst with
      | none => exact .refl _
      | some q => exact (sameRoutes_drained hq).trans (sameRoutes_of_paths rfl rfl)
    generalize rtwMeshPathFlushPending (rtwMeshGateDel w dst) dst = w₁ at hflush ⊢
    refine hflush.pulled.trans fun d v hv => ?_
    have hv' : seenRoute (w₁.setPath dst none) d = some v := hv
    by_cases hd : d = dst
    · rw [seenRoute, paths_setPath, if_pos hd, Option.map_none] at hv'
      contradiction
    · rwa [seenRoute_setPath_of_ne hd none] at hv'

theorem pulled_expire (malloc : MacAddr → Bool) (w : MeshInfo) (walk : List MacAddr) :
    Pulled w (rtwMeshPathTblExpire w walk malloc) := by
  unfold rtwMeshPathTblExpire
  induction walk generalizing w with
  | nil => exact (SameRoutes.refl w).pulled
  | cons dst walk ih =>
    refine Pulled.trans ?_ (ih _)
    unfold expirePath
    cases hp : w.paths dst with
    | none => exact (SameRoutes.refl w).pulled
    | some p =>
      dsimp only
      split_ifs
      · exact pulled_pathDel w dst
      · exact (sameRoutes_gateDel w dst).pulled
      · refine (SameRoutes.trans ?_ (sameRoutes_queuePreq _ _ _ _ _)).pulled
        exact sameRoutes_setPath hp rfl
      · exact (SameRoutes.refl w).pulled

/-! ## Steps -/

def rxPart (h : LastHop) (r : RouteInfo) : RxStage → Option Part
  | .originator => some (.originator h r)
  | .transmitter => some (.transmitter h r)
  | _ => none

def jobPart : MeshJob → Option Part
  | .preq _ e .process _ => some (.target e)
  | .preq h e stage _ => rxPart h e.route stage
  | .prep h e stage _ => rxPart h e.route stage
  | .fix _ => none

def partOf (s : MeshSystem) : MeshSystemEvent → Option Part
  | .op (.perr _ _) => some .broken
  | .op (.plinkBroken _ _) => some .broken
  | .op (.rann _ e _) => some (.root e)
  | .job k _ => s.jobs[k]?.bind jobPart
  | _ => none

/-- Elements, whose parts may be taken in any order, links that break, and expiries. -/
def IsRouteEvent : MeshSystemEvent → Prop
  | .preq _ _ | .prep _ _ | .job _ _ => True
  | .op (.perr _ _) | .op (.rann _ _ _) | .op (.plinkBroken _ _) => True
  | .op (.elapse _) | .op (.pathExpire _ _) => True
  | _ => False

def Stepped (part : Option Part) (w w' : MeshInfo) : Prop :=
  ∀ d v v', seenRoute w d = some v → seenRoute w' d = some v' →
    ∃ u t, v' = u.seen t ∧ (u = v ∨ ∃ a, part = some a ∧ RouteWrite d v a u)

theorem Pulled.stepped (h : Pulled w w') {part : Option Part} : Stepped part w w' := by
  intro d v v' hv hv'
  obtain ⟨p, _, hseen⟩ := Option.map_eq_some_iff.1 hv
  have hvv : v = v' := Option.some.inj (hv.symm.trans (h d v' hv'))
  exact ⟨v, w.now, by rw [← hvv, ← hseen, RouteView.seen_seen le_rfl], .inl rfl⟩

theorem Writes.stepped {part : Part} (h : Writes part w w') : Stepped (some part) w w' := by
  intro d v v' hv hv'
  obtain ⟨p, _, hseen⟩ := Option.map_eq_some_iff.1 hv
  obtain ⟨v'', hv'', hwrite⟩ := h.seen d v hv
  obtain rfl := Option.some.inj (hv'.symm.trans hv'')
  obtain rfl | ⟨u, hwrite, rfl⟩ := hwrite
  · exact ⟨v', w.now, by rw [← hseen, RouteView.seen_seen le_rfl], .inl rfl⟩
  · exact ⟨u, w.now, rfl, .inr ⟨part, rfl, hwrite⟩⟩

theorem Kept.stepped (h : Kept w w') {part : Option Part} : Stepped part w w' := by
  intro d v v' hv hv'
  obtain ⟨p, _, hseen⟩ := Option.map_eq_some_iff.1 hv
  obtain rfl := Option.some.inj (hv'.symm.trans (h.seen d v hv))
  exact ⟨v', w.now, by rw [← hseen, RouteView.seen_seen le_rfl], .inl rfl⟩

theorem stepped_elapse (w : MeshInfo) (ticks : ℕ) (part : Option Part) :
    Stepped part w { w with now := w.now + ticks } := by
  intro d v v' hv hv'
  obtain ⟨p, hp, rfl⟩ := Option.map_eq_some_iff.1 hv
  have hlater : (w.paths d).map (fun p => (route p).seen (w.now + ticks)) = some v' := hv'
  rw [hp, Option.map_some] at hlater
  obtain rfl := Option.some.inj hlater
  exact ⟨_, w.now + ticks, (RouteView.seen_seen (Nat.le_add_right _ _) _).symm, .inl rfl⟩

theorem stepped_rxAdvance (w : MeshInfo) (h : LastHop) (r : RouteInfo) (stage : RxStage)
    (process malloc : Bool) :
    Stepped (rxPart h r stage) w (rxAdvance w h r stage process malloc).1 := by
  cases stage with
  | originator => exact (writes_originatorInfo w h r malloc).stepped
  | txOriginator => exact (sameRoutes_txPending w _).kept.stepped
  | transmitter => exact (writes_transmitterInfo w h r malloc).stepped
  | txTransmitter => exact (sameRoutes_txPending w _).kept.stepped
  | process => exact (Kept.refl w).stepped

theorem advance_preq (w : MeshInfo) (h : LastHop) (e : PreqElem) {stage : RxStage}
    (hstage : stage ≠ .process) (process malloc : Bool) :
    ((MeshJob.preq h e stage process).advance w malloc).1 =
      (rxAdvance w h e.route stage process malloc).1 := by
  unfold MeshJob.advance
  dsimp only
  split
  · rfl
  · exact if_neg fun hall => hstage hall.1

theorem advance_prep (w : MeshInfo) (h : LastHop) (e : PrepElem) {stage : RxStage}
    (hstage : stage ≠ .process) (process malloc : Bool) :
    ((MeshJob.prep h e stage process).advance w malloc).1 =
      (rxAdvance w h e.route stage process malloc).1 := by
  unfold MeshJob.advance
  dsimp only
  split
  · rfl
  · exact if_neg fun hall => hstage hall.1

theorem stepped_advance (w : MeshInfo) (malloc : Bool) (j : MeshJob) :
    Stepped (jobPart j) w (j.advance w malloc).1 := by
  cases j with
  | preq h e stage process =>
    by_cases hstage : stage = .process
    · subst hstage
      refine Writes.stepped ?_
      show Writes _ w (if _ then rtwHwmpPreqFrameProcess w e else w)
      split_ifs
      · exact writes_preq w e
      · exact (Kept.refl w).writes
    · have hpart : jobPart (.preq h e stage process) = rxPart h e.route stage := by
        cases stage <;> first | rfl | exact absurd rfl hstage
      rw [hpart, advance_preq w h e hstage]
      exact stepped_rxAdvance w h e.route stage process malloc
  | prep h e stage process =>
    by_cases hstage : stage = .process
    · subst hstage
      refine Kept.stepped ?_
      show Kept w (if _ then rtwHwmpPrepFrameProcess w e else w)
      split_ifs
      · exact kept_prep w e
      · exact .refl w
    · rw [advance_prep w h e hstage]
      exact stepped_rxAdvance w h e.route stage process malloc
  | fix dst => exact (sameRoutes_txPending w dst).kept.stepped

/-- **What a step does to the routes.** -/
theorem stepped_system {s s' : MeshSystem} {e : MeshSystemEvent} (he : IsRouteEvent e)
    (h : meshSystemStep s e = some s') : Stepped (partOf s e) s.info s'.info := by
  cases e with
  | preq hop e =>
    obtain rfl := Option.some.inj h
    exact (Kept.refl _).stepped
  | prep hop e =>
    obtain rfl := Option.some.inj h
    exact (Kept.refl _).stepped
  | addMpath => exact he.elim
  | changeMpath => exact he.elim
  | job k malloc =>
    obtain ⟨j, hj, rfl⟩ := Option.map_eq_some_iff.1 h
    rw [partOf, hj, Option.bind_some]
    exact stepped_advance s.info malloc j
  | op e =>
    obtain ⟨w, hw, rfl⟩ := Option.map_eq_some_iff.1 h
    cases e with
    | elapse ticks =>
      obtain rfl := Option.some.inj hw
      exact stepped_elapse s.info ticks _
    | perr ta e =>
      obtain rfl := Option.some.inj hw
      exact (writes_perr s.info ta e).stepped
    | rann hop e env =>
      obtain rfl := Option.some.inj hw
      exact (writes_rann s.info hop e env).stepped
    | plinkBroken sta walk =>
      obtain rfl := Option.some.inj hw
      exact (writes_plinkBroken s.info sta walk).stepped
    | pathExpire walk malloc =>
      obtain rfl := Option.some.inj hw
      exact (pulled_expire malloc s.info walk).stepped
    | _ => exact he.elim

/-! ## The law -/

/-- In the order of serial numbers, where none is ahead of the one opposite. -/
theorem rtwSnLt_of_not_gt {x y : UInt32} (hgt : ¬rtwSnGt x y) (hne : y ≠ x) : rtwSnLt x y := by
  have hne' : y.toNat ≠ x.toNat := fun h => hne (UInt32.toNat_inj.1 h)
  simp only [rtwSnGt, rtwSnLt, decide_eq_true_eq, UInt32.le_iff_toNat_le, UInt32.toNat_sub,
    UInt32.toNat_ofNat] at hgt ⊢
  have hx := x.toNat_lt
  have hy := y.toNat_lt
  omega

def HeardFrom (dst : MacAddr) (part : Option Part) : Prop :=
  ∃ h r, part = some (.transmitter h r) ∧ h.ta = dst

def Better (dst : MacAddr) (v : RouteView) (part : Option Part) : Prop :=
  ∃ h r, part = some (.originator h r) ∧ r.originator = dst ∧
    (rtwSnLt v.sn r.sn ∨ r.sn = v.sn ∧ newMetric h r < v.metric)

/-- An element of the destination that is newer, or far from what was recorded; with nothing valid
recorded, any. -/
def Renews (dst : MacAddr) (v : RouteView) (part : Option Part) : Prop :=
  ∃ h r, part = some (.originator h r) ∧ r.originator = dst ∧
    (v.snValid = false ∨ rtwSnLt v.sn r.sn ∨ rtwMaxSaneSnDelta < rtwSnDelta r.sn v.sn)

/-- What holds of a route across a step. -/
structure RouteLaw (dst : MacAddr) (part : Option Part) (v v' : RouteView) : Prop where
  forward : v.active → v.snValid → v'.active → v'.sn = v.sn ∨ rtwSnLt v.sn v'.sn
  replaced : v.active → v.snValid → v'.active →
    (v'.nextHop ≠ v.nextHop ∨ v'.metric ≠ v.metric) → Better dst v part ∨ HeardFrom dst part
  again : v.active = false → v'.active → Renews dst v part ∨ HeardFrom dst part

theorem better_of_takes {v : RouteView} {h : LastHop} {r : RouteInfo} (hactive : v.active)
    (hvalid : v.snValid) (htakes : v.Takes r (newMetric h r)) :
    rtwSnLt v.sn r.sn ∨ r.sn = v.sn ∧ newMetric h r < v.metric := by
  rw [RouteView.Takes, if_pos hactive] at htakes
  have hnot := fun hstale => htakes ⟨hvalid, hstale⟩
  obtain ⟨hgt, hmetric⟩ := not_or.1 hnot
  by_cases heq : r.sn = v.sn
  · exact .inr ⟨heq, UInt32.not_le.1 fun hle => hmetric ⟨heq.symm, hle⟩⟩
  · exact .inl (rtwSnLt_of_not_gt hgt heq)

theorem routeLaw_of_write {part : Part} {v u : RouteView} (h : RouteWrite dst v part u) :
    RouteLaw dst (some part) v u := by
  cases h with
  | originator hop r hdst hfixed htakes =>
    refine ⟨fun hactive hvalid _ => ?_, fun hactive hvalid _ _ => ?_, fun hidle _ => ?_⟩
    · obtain hlt | ⟨heq, _⟩ := better_of_takes hactive hvalid htakes
      · exact .inr hlt
      · exact .inl heq
    · exact .inl ⟨hop, r, rfl, hdst, better_of_takes hactive hvalid htakes⟩
    · refine .inl ⟨hop, r, rfl, hdst, ?_⟩
      rw [RouteView.Takes, if_neg (ne_true_of_eq_false hidle), Bool.not_eq_true'] at htakes
      exact htakes
  | transmitter hop r hdst hne hfixed =>
    exact ⟨fun _ _ _ => .inl rfl, fun _ _ _ _ => .inr ⟨hop, r, rfl, hdst⟩,
      fun _ _ => .inr ⟨hop, r, rfl, hdst⟩⟩
  | target e hdst hsn =>
    refine ⟨fun _ hvalid _ => ?_, fun _ _ _ hne => ?_, fun hidle hactive => ?_⟩
    · obtain hinvalid | hlt := hsn
      · exact absurd hvalid (ne_true_of_eq_false hinvalid)
      · exact .inr hlt
    · exact absurd hne (by simp)
    · exact absurd hactive (ne_true_of_eq_false hidle)
  | root e hdst hsn =>
    refine ⟨fun _ _ _ => ?_, fun _ _ _ hne => ?_, fun hidle hactive => ?_⟩
    · exact hsn.imp Eq.symm id
    · exact absurd hne (by simp)
    · exact absurd hactive (ne_true_of_eq_false hidle)
  | broken sn =>
    exact ⟨fun _ _ hactive => absurd hactive Bool.false_ne_true,
      fun _ _ hactive _ => absurd hactive Bool.false_ne_true,
      fun _ hactive => absurd hactive Bool.false_ne_true⟩

theorem routeLaw_refl (part : Option Part) (v : RouteView) : RouteLaw dst part v v :=
  ⟨fun _ _ _ => .inl rfl, fun _ _ _ hne => absurd hne (by simp),
    fun hidle hactive => absurd hactive (ne_true_of_eq_false hidle)⟩

theorem RouteView.seen_of_active {v : RouteView} {now : ℕ} (h : (v.seen now).active) :
    v.seen now = v := by
  rw [seen] at h ⊢
  split_ifs at h ⊢ with hexp
  rfl

/-- A route that has expired is not in use, and the law says nothing of it. -/
theorem RouteLaw.seen {part : Option Part} {v u : RouteView} (h : RouteLaw dst part v u) (t : ℕ) :
    RouteLaw dst part v (u.seen t) where
  forward ha hv ha' := by
    have hu := RouteView.seen_of_active ha'
    rw [hu] at ha' ⊢
    exact h.forward ha hv ha'
  replaced ha hv ha' := by
    have hu := RouteView.seen_of_active ha'
    rw [hu] at ha' ⊢
    exact h.replaced ha hv ha'
  again hidle ha' := by
    rw [RouteView.seen_of_active ha'] at ha'
    exact h.again hidle ha'

/-- **The step law.** -/
theorem routeLaw_step {s s' : MeshSystem} {e : MeshSystemEvent} {v v' : RouteView}
    (he : IsRouteEvent e) (h : meshSystemStep s e = some s')
    (hv : seenRoute s.info dst = some v) (hv' : seenRoute s'.info dst = some v') :
    RouteLaw dst (partOf s e) v v' := by
  obtain ⟨u, t, rfl, rfl | ⟨part, hpart, hwrite⟩⟩ := stepped_system he h dst v v' hv hv'
  · exact (routeLaw_refl _ _).seen t
  · rw [hpart]
    exact (routeLaw_of_write hwrite).seen t

/-! ## Runs -/

open Transition

variable {s s' : MeshSystem} {es : List MeshSystemEvent}

def StepOf (s : MeshSystem) (es : List MeshSystemEvent) (s₁ : MeshSystem) (e : MeshSystemEvent)
    (s₂ : MeshSystem) : Prop :=
  ∃ es₁ es₂, es = es₁ ++ e :: es₂ ∧ run meshSystemStep s es₁ = some s₁ ∧
    meshSystemStep s₁ e = some s₂

theorem StepOf.cons {m s₁ s₂ : MeshSystem} {e e' : MeshSystemEvent}
    (hm : meshSystemStep s e = some m) (h : StepOf m es s₁ e' s₂) :
    StepOf s (e :: es) s₁ e' s₂ := by
  obtain ⟨es₁, es₂, rfl, hrun, hstep⟩ := h
  exact ⟨e :: es₁, es₂, rfl, run_cons.2 ⟨m, hm, hrun⟩, hstep⟩

def Along (P : RouteView → Prop) (dst : MacAddr) : MeshSystem → List MeshSystemEvent → Prop :=
  Meets meshSystemStep fun s _ => ∃ v, seenRoute s.info dst = some v ∧ P v

theorem Along.start {P : RouteView → Prop} (h : Along P dst s es)
    (hrun : run meshSystemStep s es = some s') {v' : RouteView}
    (hv' : seenRoute s'.info dst = some v') (hP : P v') :
    ∃ u, seenRoute s.info dst = some u ∧ P u := by
  cases es with
  | nil =>
    obtain rfl := Option.some.inj hrun
    exact ⟨v', hv', hP⟩
  | cons e es => exact h.1

/-- **The rule of coming back**: a route that comes to be in use does so in some step. -/
theorem exists_again (hes : ∀ e ∈ es, IsRouteEvent e) (hrun : run meshSystemStep s es = some s')
    (hthere : Along (fun _ => True) dst s es) {v v' : RouteView}
    (hv : seenRoute s.info dst = some v) (hidle : v.active = false)
    (hv' : seenRoute s'.info dst = some v') (hactive : v'.active) :
    ∃ s₁ e s₂ u, StepOf s es s₁ e s₂ ∧ seenRoute s₁.info dst = some u ∧ u.active = false ∧
      (Renews dst u (partOf s₁ e) ∨ HeardFrom dst (partOf s₁ e)) := by
  induction es generalizing s v with
  | nil =>
    obtain rfl := Option.some.inj hrun
    obtain rfl := Option.some.inj (hv.symm.trans hv')
    exact absurd hactive (ne_true_of_eq_false hidle)
  | cons e es ih =>
    obtain ⟨m, hm, hrest⟩ := run_cons.1 hrun
    have hthere' : Along (fun _ => True) dst m es := hthere.2 m hm
    obtain ⟨u, hu, _⟩ := hthere'.start hrest hv' trivial
    have hlaw := routeLaw_step (hes e List.mem_cons_self) hm hv hu
    by_cases hua : u.active
    · exact ⟨s, e, m, v, ⟨[], es, rfl, rfl, hm⟩, hv, hidle, hlaw.again hidle hua⟩
    · obtain ⟨s₁, e', s₂, u', hstep, hagain⟩ :=
        ih (fun e he => hes e (List.mem_cons_of_mem _ he)) hrest hthere' hu
          (eq_false_of_ne_true hua)
      exact ⟨s₁, e', s₂, u', hstep.cons hm, hagain⟩

/-- **The rule of order**: the numbers of a route that stays in use come one after the other. -/
theorem sn_chain (hes : ∀ e ∈ es, IsRouteEvent e) (hrun : run meshSystemStep s es = some s')
    (hvalid : Along (fun v => v.active ∧ v.snValid) dst s es) {v v' : RouteView}
    (hv : seenRoute s.info dst = some v) (hv' : seenRoute s'.info dst = some v')
    (hactive : v'.active) :
    Relation.ReflTransGen (fun x y => rtwSnLt x y = true) v.sn v'.sn := by
  induction es generalizing s v with
  | nil =>
    obtain rfl := Option.some.inj hrun
    obtain rfl := Option.some.inj (hv.symm.trans hv')
    exact .refl
  | cons e es ih =>
    obtain ⟨m, hm, hrest⟩ := run_cons.1 hrun
    have hvalid' := hvalid.2 m hm
    have hactive' : Along (·.active) dst m es :=
      hvalid'.imp fun _ _ ⟨v, hv, ha, _⟩ => ⟨v, hv, ha⟩
    obtain ⟨u, hu, hua⟩ := hactive'.start hrest hv' hactive
    obtain ⟨⟨v₀, hv₀, ha₀, hsn₀⟩, _⟩ := hvalid
    obtain rfl := Option.some.inj (hv.symm.trans hv₀)
    have hrestchain := ih (fun e he => hes e (List.mem_cons_of_mem _ he)) hrest hvalid' hu
    obtain heq | hlt := (routeLaw_step (hes e List.mem_cons_self) hm hv hu).forward ha₀ hsn₀ hua
    · rwa [← heq]
    · exact .head hlt hrestchain

/-- In every run, every step keeps the law; a route that stays in use goes on in the order of serial
numbers, and one that was not in use comes back only by what renews it. -/
theorem route_law (dst : MacAddr) (hes : ∀ e ∈ es, IsRouteEvent e)
    (hrun : run meshSystemStep s es = some s') :
    (∀ s₁ e s₂ v v', StepOf s es s₁ e s₂ → seenRoute s₁.info dst = some v →
      seenRoute s₂.info dst = some v' → RouteLaw dst (partOf s₁ e) v v') ∧
    ∀ v v', seenRoute s.info dst = some v → seenRoute s'.info dst = some v' → v'.active →
      (Along (fun v => v.active ∧ v.snValid) dst s es →
        Relation.ReflTransGen (fun x y => rtwSnLt x y = true) v.sn v'.sn) ∧
      (Along (fun _ => True) dst s es → v.active = false →
        ∃ s₁ e s₂ u, StepOf s es s₁ e s₂ ∧ seenRoute s₁.info dst = some u ∧ u.active = false ∧
          (Renews dst u (partOf s₁ e) ∨ HeardFrom dst (partOf s₁ e))) := by
  constructor
  · rintro s₁ e s₂ v v' ⟨es₁, es₂, rfl, hrun₁, hstep⟩ hv hv'
    exact routeLaw_step (hes e (by simp)) hstep hv hv'
  · intro v v' hv hv' hactive
    exact ⟨fun hvalid => sn_chain hes hrun hvalid hv hv' hactive,
      fun hthere hidle => exists_again hes hrun hthere hv hidle hv' hactive⟩

def meshAddr (n : UInt8) : MacAddr := ⟨2, 0, 0, 0, 0, n⟩

def quietStation : MeshSystem := { info := { cfg := { macAddr := meshAddr 1 } } }

def requestOf (n : UInt8) : PreqElem where
  route := { originator := meshAddr n, sn := 0, metric := 5, expTime := 100 }
  target := meshAddr 8
  targetSn := 0
  targetOnly := true
  isGate := false
  lifetime := 100

def passedOn : List MeshSystemEvent :=
  .preq ⟨meshAddr 2, 10⟩ (requestOf 9) :: List.replicate 5 (.job 0 true)

/-- The route to a neighbour has no valid number until an element of its own comes; the first one
revives a route that has been broken, also when another station passes it on and its number is
behind the one that breaking the route has made up. -/
theorem revived_without_newer : ∃ s₀ s₁ s₂ s₃ v₀ v₁ v₃,
    run meshSystemStep quietStation passedOn = some s₀ ∧
    seenRoute s₀.info (meshAddr 2) = some v₀ ∧ v₀.active ∧ v₀.fixed = false ∧
    meshSystemStep s₀ (.op (.plinkBroken (meshAddr 2) [meshAddr 2])) = some s₁ ∧
    meshSystemStep s₁ (.preq ⟨meshAddr 3, 10⟩ (requestOf 2)) = some s₂ ∧
    seenRoute s₂.info (meshAddr 2) = some v₁ ∧ v₁.active = false ∧
    meshSystemStep s₂ (.job 0 true) = some s₃ ∧
    seenRoute s₃.info (meshAddr 2) = some v₃ ∧ v₃.active ∧
    ¬((∃ h r, partOf s₂ (.job 0 true) = some (.originator h r) ∧ r.originator = meshAddr 2 ∧
        (rtwSnLt v₁.sn r.sn ∨ rtwMaxSaneSnDelta < rtwSnDelta r.sn v₁.sn)) ∨
      HeardFrom (meshAddr 2) (partOf s₂ (.job 0 true))) := by
  refine ⟨_, _, _, _, _, _, _, rfl, rfl, rfl, rfl, rfl, rfl, rfl, rfl, rfl, rfl, rfl, ?_⟩
  rintro (⟨h, r, hpart, -, hnew⟩ | ⟨h, r, hpart, -⟩)
  · have hr : r = (requestOf 2).route := by
      injection hpart with hpart
      injection hpart with _ hr
      exact hr.symm
    subst hr
    revert hnew
    decide
  · injection hpart with hpart
    injection hpart

def brokenStation : MeshSystem where
  info := quietStation.info.setPath (meshAddr 2) (some
    { dst := meshAddr 2, nextHop := some (meshAddr 2), flags := { snValid := true }, sn := 8
      metric := 10, expTime := 50 })

/-- The station 9 asks through 2, which is heard. -/
theorem route_law_brokenStation : ∃ s', run meshSystemStep brokenStation passedOn = some s' ∧
    (∀ s₁ e s₂ v v', StepOf brokenStation passedOn s₁ e s₂ →
      seenRoute s₁.info (meshAddr 2) = some v → seenRoute s₂.info (meshAddr 2) = some v' →
      RouteLaw (meshAddr 2) (partOf s₁ e) v v') ∧
    ∀ v v', seenRoute brokenStation.info (meshAddr 2) = some v →
      seenRoute s'.info (meshAddr 2) = some v' → v'.active →
      (Along (fun v => v.active ∧ v.snValid) (meshAddr 2) brokenStation passedOn →
        Relation.ReflTransGen (fun x y => rtwSnLt x y = true) v.sn v'.sn) ∧
      (Along (fun _ => True) (meshAddr 2) brokenStation passedOn → v.active = false →
        ∃ s₁ e s₂ u, StepOf brokenStation passedOn s₁ e s₂ ∧
          seenRoute s₁.info (meshAddr 2) = some u ∧ u.active = false ∧
          (Renews (meshAddr 2) u (partOf s₁ e) ∨ HeardFrom (meshAddr 2) (partOf s₁ e))) :=
  ⟨_, rfl, route_law (meshAddr 2) (by simp [passedOn, IsRouteEvent]) rfl⟩

end Freshness

end Rtl88x2eu.Mesh
