import Rtl88x2eu.Lib.Counter
import Rtl88x2eu.Lib.Transition
import Rtl88x2eu.Recv.Security
import Rtl88x2eu.Xmit.MgntCoalesce

/-!
# Packet numbers on transmit

CCMP and GCMP are only safe if no packet number is used twice under one key. The driver draws the
number of a data frame when it makes the attributes, and writes it much later, once for every
fragment. Management frames draw from the same counter and are written at once. A key is named by
the station that it is installed for, which is the broadcast station for the group key.

## Main definitions

* `Mpdu`, `step`, `NoncesUnique`, `TxOk`

## Main results

* `nextTxpn_mod`
* `noncesUnique_of_run`: packet numbers are unique if no frame is cut
* `not_noncesUnique`: the fragments of one frame share their packet number
-/

namespace Rtl88x2eu.Xmit

open Memory

/-! ## Runs -/

/-- An MPDU as it was written into its buffer. -/
structure Mpdu where
  /-- The station whose key it is under. -/
  owner : MacAddr
  encrypt : SecurityType
  hdrlen : ℕ
  bytes : Bytes
deriving DecidableEq, Repr

def Mpdu.pn (w : Mpdu) : ℕ := ivToPn w.encrypt (w.bytes.drop w.hdrlen)

def Mpdu.under (o : MacAddr) (w : Mpdu) : Bool := w.owner = o && w.encrypt.isAead

structure TxWorld where
  adapter : Adapter
  /-- The frames that have their attributes and are not built yet. -/
  pending : List XmitFrame := []
  written : List Mpdu := []
  /-- How many packet numbers were drawn from the counter of a station. -/
  drawn : MacAddr → ℕ := fun _ => 0

inductive TxEvent
  /-- `rtw_xmit` makes the attributes of a packet. -/
  | attrib (pkt : Bytes) (eapol : EapType) (p : PktAttrib)
  /-- A pending frame is built at a place of a buffer. -/
  | coalesce (i : ℕ) (m : Mem) (bufAddr pktOffset : ℕ)
  /-- A pending frame is freed. -/
  | drop (i : ℕ)
  /-- A management frame that stands in its buffer is protected. -/
  | mgmt (m : Mem) (bufAddr pktlen : ℕ) (keyType : KeyType) (zmalloc : Bool)
  /-- Anything but the packet numbers is set anew. -/
  | configure (a : Adapter)

/-- The packet number counters stay as they were. -/
def Adapter.keepTxpns (a a' : Adapter) : Adapter :=
  { a' with
    stations := fun addr =>
      match a.stations addr, a'.stations addr with
      | some psta, some psta' => some { psta' with dot11txpn := psta.dot11txpn }
      | some psta, none => some psta
      | none, psta' => psta' }

def bump (drawn : MacAddr → ℕ) (o : MacAddr) : MacAddr → ℕ :=
  Function.update drawn o (drawn o + 1)

def mpduOf (m : Mem) (p : PktAttrib) (g : Fragment) : Mpdu :=
  ⟨staKey p.ra, p.encrypt, p.hdrlen, read m g.start g.len⟩

/-- Attributes are made, a frame is built or dropped, a management frame is protected, and
everything but the packet numbers may be configured anew. -/
def step (c : TxCrypto) (w : TxWorld) : TxEvent → Option TxWorld
  | .attrib pkt eapol p =>
    match updateAttrib w.adapter pkt eapol p with
    | none => some w
    | some (q, psta) =>
      some { w with
        adapter := w.adapter.setSta (staKey q.ra) psta
        pending := w.pending ++ [{ attrib := doQueueSelect q, pkt := pkt }]
        drawn := if txCipher q.encrypt then bump w.drawn (staKey q.ra) else w.drawn }
  | .coalesce i m bufAddr pktOffset =>
    w.pending[i]?.bind fun f =>
      let f := { f with bufAddr := bufAddr, pktOffset := pktOffset }
      (rtwXmitframeCoalesce c w.adapter m f).map fun r =>
        { w with
          adapter := r.adapter
          pending := w.pending.eraseIdx i
          -- a frame that could not be built is freed
          written := w.written ++ if r.res then r.frags.map (mpduOf r.mem f.attrib) else [] }
  | .drop i => some { w with pending := w.pending.eraseIdx i }
  | .mgmt m bufAddr pktlen keyType zmalloc =>
    if wlanHdrA3Len ≤ pktlen then
      let p := updateMgntframeAttrib w.adapter m bufAddr pktlen keyType
      let r := rtwMgmtXmitframeCoalesce c zmalloc w.adapter m bufAddr p
      let w := { w with adapter := r.adapter }
      match r.sealed with
      | none => some w
      | some g =>
        some { w with
          written := w.written ++ [mpduOf r.mem { r.attrib with ra := p.ra } g]
          drawn := bump w.drawn (staKey p.ra) }
    else none
  | .configure a => some { w with adapter := w.adapter.keepTxpns a }

/-- **No packet number was used twice** under the key of `o`. -/
def NoncesUnique (o : MacAddr) (written : List Mpdu) : Prop :=
  ((written.filter (·.under o)).map Mpdu.pn).Nodup

/-- A WEP vector would set the counter back to zero. -/
def wepWraps (a : Adapter) (ra : MacAddr) : Bool :=
  match rtwGetStainfo a ra with
  | none => false
  | some psta =>
    let encrypt := getEncryAlgo a.securitypriv psta ra.isMcast
    (encrypt = .wep40 || encrypt = .wep104) && psta.dot11txpn = 0xffffff

/-- **The condition**: a frame under the CCMP or GCMP key of `o` is not cut; and a counter that
these keys draw from is not wrapped around as the shorter counter of WEP. -/
def TxOk (o : MacAddr) (w : TxWorld) : TxEvent → Prop
  | .attrib pkt _ p =>
    staKey (txRa w.adapter pkt p) = o → wepWraps w.adapter (txRa w.adapter pkt p) = false
  | .coalesce i _ _ _ =>
    ∀ f ∈ w.pending[i]?, staKey f.attrib.ra = o → f.attrib.encrypt.isAead → OneFragment w.adapter f
  | _ => True

/-! ## The numbers in use -/

def XmitFrame.pn (f : XmitFrame) : ℕ := ivToPn f.attrib.encrypt f.attrib.iv

def XmitFrame.under (o : MacAddr) (f : XmitFrame) : Bool :=
  staKey f.attrib.ra = o && f.attrib.encrypt.isAead

/-- The packet numbers of `o` that stand in buffers or in attributes. -/
def TxWorld.inUse (o : MacAddr) (w : TxWorld) : List ℕ :=
  ((w.pending.filter (·.under o)).map XmitFrame.pn) ++
    ((w.written.filter (·.under o)).map Mpdu.pn)

def Counts (a : Adapter) (drawn : MacAddr → ℕ) (o : MacAddr) (start : ℕ) : Prop :=
  match txpns a o with
  | none => drawn o = 0
  | some val => val % 2 ^ 48 = (start + drawn o) % 2 ^ 48

/-- Every draw goes one further. -/
theorem nextTxpn_mod {encrypt : SecurityType} {val : ℕ} (htx : txCipher encrypt)
    (hwep : (encrypt = .wep40 ∨ encrypt = .wep104) → val ≠ 0xffffff) :
    nextTxpn encrypt val % 2 ^ 48 = (val + 1) % 2 ^ 48 := by
  unfold nextTxpn
  split_ifs with h
  · have := hwep h
    unfold nextWepPn
    rw [if_neg this]
    omega
  · exact nextPn_mod val

theorem ne_of_wepWraps {a : Adapter} {ra : MacAddr} {psta : StaInfo} {encrypt : SecurityType}
    (hsta : rtwGetStainfo a ra = some psta) (hwraps : wepWraps a ra = false)
    (halgo : encrypt = .noPrivacy ∨ encrypt = getEncryAlgo a.securitypriv psta ra.isMcast)
    (hwep : encrypt = .wep40 ∨ encrypt = .wep104) : psta.dot11txpn ≠ 0xffffff := by
  intro hmax
  have hencrypt := halgo.resolve_left (by rintro rfl; simp at hwep)
  simp only [wepWraps, hsta, ← hencrypt, hmax] at hwraps
  simp only [decide_true, Bool.and_true, Bool.or_eq_false_iff, decide_eq_false_iff_not] at hwraps
  exact hwep.elim hwraps.1 hwraps.2

section Ledger

variable {o : MacAddr} {w w' : TxWorld} {val val' : ℕ}

def Accounted (o : MacAddr) (w : TxWorld) : Prop :=
  w.drawn o < 2 ^ 48 → ∃ start, Counts w.adapter w.drawn o start ∧
    Counter.Ledger (2 ^ 48) start (w.drawn o) (w.inUse o)

/-- A step that draws the next number of `o`. -/
theorem Accounted.draw (h : Accounted o w) (hdrawn : w'.drawn o = w.drawn o + 1)
    (hval : txpns w.adapter o = some val) (hval' : txpns w'.adapter o = some val')
    (hmod : val' % 2 ^ 48 = (val + 1) % 2 ^ 48)
    (huse : (w'.inUse o).Subperm (val' % 2 ^ 48 :: w.inUse o)) : Accounted o w' := by
  intro hlt
  obtain ⟨start, hcounts, hledger⟩ := h (by omega)
  simp only [Counts, hval] at hcounts
  have hnext : val' % 2 ^ 48 = (start + (w.drawn o + 1)) % 2 ^ 48 := by omega
  refine ⟨start, ?_, ?_⟩
  · simp only [Counts, hval', hdrawn]
    exact hnext
  · rw [hdrawn]
    rw [hnext] at huse
    exact (hledger.draw (by omega)).subperm huse

/-- A step that draws no number of `o`. -/
theorem Accounted.keep (h : Accounted o w) (hdrawn : w'.drawn o = w.drawn o)
    (hval : txpns w'.adapter o = txpns w.adapter o)
    (huse : (w'.inUse o).Subperm (w.inUse o)) : Accounted o w' := by
  intro hlt
  obtain ⟨start, hcounts, hledger⟩ := h (by omega)
  refine ⟨start, ?_, ?_⟩
  · simp only [Counts, hval, hdrawn]
    exact hcounts
  · rw [hdrawn]
    exact hledger.subperm huse

theorem txpns_setSta (a : Adapter) (addr : MacAddr) (psta : StaInfo) :
    txpns (a.setSta addr psta) o = if o = addr then some psta.dot11txpn else txpns a o := by
  simp only [txpns, Adapter.setSta_stations]
  split_ifs <;> rfl

theorem SameKeys.txpns_eq {a a' : Adapter} (h : SameKeys a a') : txpns a' o = txpns a o := by
  have hsta := congrArg (Option.map StaInfo.dot11txpn) (h.stations o)
  simpa only [Option.map_map, Function.comp_def, txpns] using hsta

end Ledger

/-- **The invariant**: the numbers in use are those of different draws. -/
structure Inv (o : MacAddr) (w : TxWorld) : Prop where
  ready : ∀ f ∈ w.pending, Ready f.attrib f.pkt
  accounted : Accounted o w

section Pn

variable {m : Mem} {f : XmitFrame} {o : MacAddr}

theorem ivToPn_octets (enc : SecurityType) (iv : Bytes) :
    ivToPn enc (octets iv 8) = ivToPn enc iv :=
  rfl

theorem pn_mpduOf {p : PktAttrib} {g : Fragment} (hlen : p.hdrlen + 8 ≤ g.len) :
    (mpduOf m p g).pn = ivToPn p.encrypt (read m (g.start + p.hdrlen) 8) := by
  show ivToPn p.encrypt ((read m g.start g.len).drop p.hdrlen) = _
  rw [drop_read (by omega), ← ivToPn_take, take_read (by omega)]

/-- **A frame that is not cut carries the packet number of its attributes.** -/
theorem pn_of_whole {r : Coalesced} (hready : Ready f.attrib f.pkt)
    (haead : f.attrib.encrypt.isAead)
    (hwhole : Whole m f r) :
    ∃ w, r.frags.map (mpduOf r.mem f.attrib) = [w] ∧ w.pn = f.pn := by
  have hivLen : f.attrib.ivLen = 8 := by
    rw [hready.ivLen, if_pos (txCipher_of_isAead haead)]
    cases henc : f.attrib.encrypt <;> rw [henc] at haead <;>
      first | rfl | exact absurd haead Bool.false_ne_true
  refine ⟨_, congrArg (List.map _) hwhole.frags, ?_⟩
  have hiv := hwhole.iv
  rw [hivLen] at hiv
  rw [pn_mpduOf (by simp only [wlanPktSize]; omega), hiv, ivToPn_octets, XmitFrame.pn]

end Pn

/-! ## Steps -/

section Steps

variable {c : TxCrypto} {o : MacAddr} {w w' : TxWorld}

theorem inUse_pending (w : TxWorld) (f : XmitFrame) (a : Adapter) (drawn : MacAddr → ℕ) :
    (TxWorld.inUse o { w with
      adapter := a, pending := w.pending ++ [f], drawn := drawn }).Perm
      ((if f.under o then [f.pn] else []) ++ w.inUse o) := by
  simp only [TxWorld.inUse, List.filter_append, List.map_append, List.append_assoc]
  refine (List.perm_append_comm_assoc _ _ _).trans ?_
  cases hunder : f.under o <;> simp [hunder]

theorem inUse_written (w : TxWorld) (x : Mpdu) (a : Adapter) (drawn : MacAddr → ℕ) :
    (TxWorld.inUse o { w with
      adapter := a, written := w.written ++ [x], drawn := drawn }).Perm
      ((if x.under o then [x.pn] else []) ++ w.inUse o) := by
  simp only [TxWorld.inUse, List.filter_append, List.map_append, ← List.append_assoc]
  refine List.perm_append_comm.trans ?_
  cases hunder : x.under o <;> simp [hunder]

theorem inUse_eraseIdx (w : TxWorld) {i : ℕ} {f : XmitFrame} (h : w.pending[i]? = some f) :
    (w.inUse o).Perm ((if f.under o then [f.pn] else []) ++
      TxWorld.inUse o { w with pending := w.pending.eraseIdx i }) := by
  obtain ⟨hi, rfl⟩ := List.getElem?_eq_some_iff.mp h
  have hperm := (List.getElem_cons_eraseIdx_perm hi).symm
  have hnumbers := ((hperm.filter (·.under o)).map XmitFrame.pn).append_right
    ((w.written.filter (·.under o)).map Mpdu.pn)
  refine hnumbers.trans (.of_eq ?_)
  simp only [TxWorld.inUse, List.filter_cons]
  split_ifs <;> rfl

theorem Accounted.attrib {pkt : Bytes} {eapol : EapType} {p : PktAttrib} (h : Accounted o w)
    (hok : TxOk o w (.attrib pkt eapol p)) (hstep : step c w (.attrib pkt eapol p) = some w') :
    Accounted o w' := by
  simp only [step] at hstep
  cases hupdate : updateAttrib w.adapter pkt eapol p with
  | none =>
    rw [hupdate] at hstep
    obtain rfl := Option.some.inj hstep
    exact h
  | some r =>
    obtain ⟨q, psta'⟩ := r
    rw [hupdate] at hstep
    obtain rfl := Option.some.inj hstep
    obtain ⟨psta, hsta, hpsta, halgo, hiv, hra, -, -⟩ := updateAttrib_some hupdate
    have huse := inUse_pending (o := o) w { attrib := doQueueSelect q, pkt := pkt }
      (w.adapter.setSta (staKey q.ra) psta')
      (if txCipher q.encrypt then bump w.drawn (staKey q.ra) else w.drawn)
    have hunder : XmitFrame.under o { attrib := doQueueSelect q, pkt := pkt } =
        (staKey q.ra = o && q.encrypt.isAead) := by
      simp [XmitFrame.under]
    rw [hunder] at huse
    by_cases howner : staKey q.ra = o
    · have hval : txpns w.adapter o = some psta.dot11txpn := by
        rw [txpns, ← howner]
        exact congrArg (Option.map StaInfo.dot11txpn) hsta
      have hval' : txpns (w.adapter.setSta (staKey q.ra) psta') o = some psta'.dot11txpn := by
        rw [txpns_setSta, if_pos howner.symm]
      have hnext : psta'.dot11txpn = nextTxpn q.encrypt psta.dot11txpn := by rw [hpsta]
      by_cases htx : txCipher q.encrypt
      · have hmod : psta'.dot11txpn % 2 ^ 48 = (psta.dot11txpn + 1) % 2 ^ 48 := by
          rw [hnext]
          exact nextTxpn_mod htx (ne_of_wepWraps hsta (hra ▸ hok (hra ▸ howner)) halgo)
        refine h.draw ?_ hval hval' hmod ?_
        · simp [htx, bump, howner]
        · refine huse.subperm.trans ?_
          cases haead : q.encrypt.isAead with
          | false => simpa [howner] using (List.sublist_cons_self _ _).subperm
          | true =>
            obtain ⟨keyidx, hq⟩ := hiv haead
            simp [howner, XmitFrame.pn, hq, ivToPn_aesIv haead, List.Subperm.refl]
      · refine h.keep ?_ ?_ ?_
        · simp [htx]
        · rw [hval]
          exact hval'.trans (by rw [hnext, nextTxpn_of_not_txCipher htx])
        · have haead : q.encrypt.isAead = false := by
            cases haead : q.encrypt.isAead
            · rfl
            · exact absurd (txCipher_of_isAead haead) htx
          simpa [haead] using huse.subperm
    · refine h.keep ?_ ?_ ?_
      · dsimp only
        split_ifs
        · exact Function.update_of_ne (Ne.symm howner) _ _
        · rfl
      · exact (txpns_setSta _ _ _).trans (if_neg (Ne.symm howner))
      · simpa [howner] using huse.subperm

theorem Accounted.drop {i : ℕ} (h : Accounted o w) :
    Accounted o { w with pending := w.pending.eraseIdx i } := by
  refine h.keep rfl rfl ?_
  cases hf : w.pending[i]? with
  | none =>
    rw [List.eraseIdx_of_length_le (List.getElem?_eq_none_iff.mp hf)]
  | some f => exact (List.sublist_append_right _ _).subperm.trans (inUse_eraseIdx w hf).symm.subperm

/-- **A frame that is built moves its packet number into the buffer.** -/
theorem Accounted.coalesce {i : ℕ} {m : Mem} {bufAddr pktOffset : ℕ} (h : Inv o w)
    (hok : TxOk o w (.coalesce i m bufAddr pktOffset))
    (hstep : step c w (.coalesce i m bufAddr pktOffset) = some w') : Accounted o w' := by
  obtain ⟨f, hf, hstep⟩ := Option.bind_eq_some_iff.mp hstep
  obtain ⟨r, hr, rfl⟩ := Option.map_eq_some_iff.mp hstep
  have hready := h.ready f (List.mem_of_getElem? hf)
  have hkeys := coalesce_sameKeys hr
  refine h.accounted.keep rfl hkeys.txpns_eq ?_
  refine List.Subperm.trans ?_ (inUse_eraseIdx w hf).symm.subperm
  simp only [TxWorld.inUse, List.filter_append, List.map_append, ← List.append_assoc]
  refine List.perm_append_comm.subperm.trans ?_
  rw [List.append_assoc]
  refine (List.subperm_append_right _).mpr (List.Sublist.subperm ?_)
  cases hunder : f.under o with
  | false =>
    -- the MPDUs of a frame are under the key of the frame
    have hnone : (List.map (mpduOf r.mem f.attrib) r.frags).filter (·.under o) = [] := by
      rw [List.filter_eq_nil_iff]
      intro x hx
      obtain ⟨g, -, rfl⟩ := List.mem_map.mp hx
      exact Bool.not_eq_true _ ▸ hunder
    split_ifs <;> simp [hnone]
  | true =>
    obtain ⟨howner, haead⟩ := Bool.and_eq_true_iff.mp hunder
    have hone := hok f hf (of_decide_eq_true howner) haead
    cases hres : r.res with
    | false => simp
    | true =>
      have hwhole := (coalesce_one
        (f := { f with bufAddr := bufAddr, pktOffset := pktOffset }) hready hone hr).2 hres
      obtain ⟨x, hx, hpn⟩ := pn_of_whole (by exact hready) (by exact haead) hwhole
      have hxunder : x.under o = true := by
        have hmem : x ∈ r.frags.map (mpduOf r.mem f.attrib) := by
          rw [show r.frags.map (mpduOf r.mem f.attrib) = [x] from hx]
          exact List.mem_singleton_self x
        obtain ⟨g, -, rfl⟩ := List.mem_map.mp hmem
        exact hunder
      simp only [if_true]
      rw [show r.frags.map (mpduOf r.mem f.attrib) = [x] from hx]
      simp only [List.filter_cons, hxunder, if_true, List.filter_nil, List.map_cons, List.map_nil]
      rw [hpn]
      exact List.Sublist.refl _

/-- **A management frame that is encrypted** gets the next number. -/
theorem Accounted.mgmt {m : Mem} {bufAddr pktlen : ℕ} {keyType : KeyType} {zmalloc : Bool}
    (h : Accounted o w)
    (hstep : step c w (.mgmt m bufAddr pktlen keyType zmalloc) = some w') : Accounted o w' := by
  simp only [step] at hstep
  split_ifs at hstep with hpktlen
  generalize hp : updateMgntframeAttrib w.adapter m bufAddr pktlen keyType = p at hstep
  have hattrib : p.nrFrags = 1 ∧ p.hdrlen = 24 ∧ p.pktlen = pktlen := by
    rw [← hp]
    exact ⟨rfl, rfl, rfl⟩
  have hcases : Unsealed w.adapter (rtwMgmtXmitframeCoalesce c zmalloc w.adapter m bufAddr p) ∨
      Sealed w.adapter bufAddr p (rtwMgmtXmitframeCoalesce c zmalloc w.adapter m bufAddr p) :=
    mgmtCoalesce_cases hattrib.1 (by rw [hattrib.2.1]; decide)
  rcases hcases with hr | hr
  · rw [hr.sealed] at hstep
    obtain rfl := Option.some.inj hstep
    exact h.keep rfl (congrFun hr.txpns o) (List.Subperm.refl _)
  · generalize rtwMgmtXmitframeCoalesce c zmalloc w.adapter m bufAddr p = r at hr hstep
    obtain ⟨psta, kid, hsta, hadapter, hiv⟩ := hr.drawn
    rw [hr.sealed] at hstep
    obtain rfl := Option.some.inj hstep
    generalize hx : mpduOf r.mem { r.attrib with ra := p.ra }
      ⟨bufAddr + txdescOffset, r.attrib.pktlen⟩ = x
    have hunder : x.under o = decide (staKey p.ra = o) := by
      rw [← hx]
      exact (congrArg (decide (staKey p.ra = o) && ·) hr.encrypt).trans (Bool.and_true _)
    have hpn : x.pn = nextPn psta.dot11txpn % 2 ^ 48 := by
      rw [← hx, pn_mpduOf (by
        show r.attrib.hdrlen + 8 ≤ r.attrib.pktlen
        have := hr.pktlen
        have := hr.hdrlen
        have : wlanHdrA3Len = 24 := rfl
        omega)]
      show ivToPn r.attrib.encrypt (read r.mem (bufAddr + txdescOffset + r.attrib.hdrlen) 8) = _
      rw [hr.hdrlen, hiv, ivToPn_aesIv hr.encrypt]
    have huse := inUse_written (o := o) w x r.adapter (bump w.drawn (staKey p.ra))
    rw [hunder] at huse
    by_cases howner : staKey p.ra = o
    · have hval : txpns w.adapter o = some psta.dot11txpn := by
        rw [txpns, ← howner]
        exact congrArg (Option.map StaInfo.dot11txpn) hsta
      have hval' : txpns r.adapter o = some (nextPn psta.dot11txpn) := by
        rw [hadapter]
        exact (txpns_setSta _ _ _).trans (if_pos howner.symm)
      refine h.draw ?_ hval hval' (nextPn_mod _) ?_
      · simp [bump, howner]
      · simpa [howner, hpn] using huse.subperm
    · refine h.keep ?_ ?_ ?_
      · exact Function.update_of_ne (Ne.symm howner) _ _
      · rw [hadapter]
        exact (txpns_setSta _ _ _).trans (if_neg (Ne.symm howner))
      · simpa [howner] using huse.subperm

theorem txpns_keepTxpns {a a' : Adapter} {val : ℕ} (h : txpns a o = some val) :
    txpns (a.keepTxpns a') o = some val := by
  obtain ⟨psta, hsta, rfl⟩ := Option.map_eq_some_iff.mp h
  rw [txpns, Adapter.keepTxpns]
  dsimp only
  rw [hsta]
  cases a'.stations o <;> rfl

theorem Accounted.configure {a : Adapter} (h : Accounted o w) :
    Accounted o { w with adapter := w.adapter.keepTxpns a } := by
  intro hlt
  obtain ⟨start, hcounts, hledger⟩ := h hlt
  cases hval : txpns w.adapter o with
  | some val =>
    refine ⟨start, ?_, hledger⟩
    simp only [Counts, hval, txpns_keepTxpns hval] at hcounts ⊢
    exact hcounts
  | none =>
    simp only [Counts, hval] at hcounts
    have hnil : w.inUse o = [] := by
      rw [List.eq_nil_iff_forall_not_mem]
      intro v hv
      obtain ⟨k, hpos, hle, -⟩ := hledger.of_draw v hv
      omega
    cases hval' : txpns (w.adapter.keepTxpns a) o with
    | none => exact ⟨start, by simpa only [Counts, hval'] using hcounts, hledger⟩
    | some val =>
      refine ⟨val, by simp only [Counts, hval', hcounts, Nat.add_zero], ?_⟩
      rw [show TxWorld.inUse o { w with adapter := w.adapter.keepTxpns a } = [] from hnil]
      exact Counter.Ledger.nil _ _ _

theorem Inv.step_ready {e : TxEvent} (h : Inv o w) (hstep : step c w e = some w') :
    ∀ f ∈ w'.pending, Ready f.attrib f.pkt := by
  intro f hf
  cases e with
  | attrib pkt eapol p =>
    simp only [step] at hstep
    cases hupdate : updateAttrib w.adapter pkt eapol p with
    | none =>
      rw [hupdate] at hstep
      obtain rfl := Option.some.inj hstep
      exact h.ready f hf
    | some r =>
      obtain ⟨q, psta'⟩ := r
      rw [hupdate] at hstep
      obtain rfl := Option.some.inj hstep
      rcases List.mem_append.mp hf with hf | hf
      · exact h.ready f hf
      · obtain ⟨-, -, -, -, -, -, -, hready⟩ := updateAttrib_some hupdate
        rw [List.mem_singleton.mp hf]
        exact hready.doQueueSelect
  | coalesce i m bufAddr pktOffset =>
    obtain ⟨g, -, hstep⟩ := Option.bind_eq_some_iff.mp hstep
    obtain ⟨r, -, rfl⟩ := Option.map_eq_some_iff.mp hstep
    exact h.ready f (List.mem_of_mem_eraseIdx hf)
  | drop i =>
    obtain rfl := Option.some.inj hstep
    exact h.ready f (List.mem_of_mem_eraseIdx hf)
  | mgmt m bufAddr pktlen keyType zmalloc =>
    simp only [step] at hstep
    split_ifs at hstep
    split at hstep <;>
      · obtain rfl := Option.some.inj hstep
        exact h.ready f hf
  | configure a =>
    obtain rfl := Option.some.inj hstep
    exact h.ready f hf

/-- **The step**: what is in use stays accounted for. -/
theorem Inv.step {e : TxEvent} (h : Inv o w) (hok : TxOk o w e) (hstep : step c w e = some w') :
    Inv o w' := by
  refine ⟨h.step_ready hstep, ?_⟩
  cases e with
  | attrib pkt eapol p => exact h.accounted.attrib hok hstep
  | coalesce i m bufAddr pktOffset => exact Accounted.coalesce h hok hstep
  | drop i =>
    obtain rfl := Option.some.inj hstep
    exact h.accounted.drop
  | mgmt m bufAddr pktlen keyType zmalloc => exact h.accounted.mgmt hstep
  | configure a =>
    obtain rfl := Option.some.inj hstep
    exact h.accounted.configure

theorem Inv.init (o : MacAddr) (a : Adapter) : Inv o { adapter := a } := by
  refine ⟨fun f hf => absurd hf List.not_mem_nil, fun _ => ?_⟩
  cases hval : txpns a o with
  | none => exact ⟨0, by simp only [Counts, hval], Counter.Ledger.nil _ _ _⟩
  | some val => exact ⟨val, by simp only [Counts, hval, Nat.add_zero], Counter.Ledger.nil _ _ _⟩

end Steps

open Transition

/-- **Packet numbers are unique** under the key of `o` in every run in which no frame under that key
is cut, as long as fewer than `2 ^ 48` of them are drawn. -/
theorem noncesUnique_of_run {c : TxCrypto} {a : Adapter} {es : List TxEvent} {w : TxWorld}
    (o : MacAddr) (hok : Meets (step c) (TxOk o) { adapter := a } es)
    (hrun : run (step c) { adapter := a } es = some w) (hdrawn : w.drawn o < 2 ^ 48) :
    NoncesUnique o w.written := by
  have hinv : Inv o w :=
    run_invariant_of_meets (fun _ _ _ h hok hstep => h.step hok hstep) (Inv.init o a) hok hrun
  obtain ⟨start, -, hledger⟩ := hinv.accounted hdrawn
  exact (List.sublist_append_right _ _).nodup hledger.nodup

/-- An Ethernet packet of `n` octets of data. -/
def etherPkt (n : ℕ) : Bytes := apAddr.toBytes ++ apAddr.toBytes ++ [8, 0] ++ List.replicate n 0

/-- A packet is made and built. -/
def transmit (n : ℕ) : List TxEvent :=
  [.attrib (etherPkt n) .nonEapol {}, .coalesce 0 (fun _ => 0) 0 1]

instance TxOk.decidable (o : MacAddr) (w : TxWorld) : ∀ e, Decidable (TxOk o w e)
  | .attrib _ _ _ => inferInstanceAs (Decidable (_ → _))
  | .coalesce i _ _ _ => inferInstanceAs (Decidable (∀ f ∈ w.pending[i]?, _))
  | .drop _ => .isTrue trivial
  | .mgmt _ _ _ _ _ => .isTrue trivial
  | .configure _ => .isTrue trivial

instance NoncesUnique.decidable (o : MacAddr) (written : List Mpdu) :
    Decidable (NoncesUnique o written) :=
  inferInstanceAs (Decidable (List.Nodup _))

/-- A data frame and a deauthentication frame, one after the other. -/
theorem noncesUnique_dataAndDeauth :
    ∃ w, run (step nullCrypto) { adapter := ccmpAdapter 2346 }
        (transmit 300 ++ [.mgmt deauthMem 0 26 .rightKey true]) = some w ∧
      w.written.map Mpdu.pn = [1, 2] ∧ NoncesUnique apAddr w.written := by
  obtain ⟨w, hrun, hpns, hdrawn⟩ : ∃ w,
      run (step nullCrypto) { adapter := ccmpAdapter 2346 }
        (transmit 300 ++ [.mgmt deauthMem 0 26 .rightKey true]) = some w ∧
      w.written.map Mpdu.pn = [1, 2] ∧ w.drawn apAddr < 2 ^ 48 :=
    exists_run_of_any (by decide +kernel)
  exact ⟨w, hrun, hpns, noncesUnique_of_run apAddr (by decide +kernel) hrun hdrawn⟩

/-- **The fragments of one frame share their packet number**: a packet of 300 octets under CCMP,
with a fragmentation threshold of 256. -/
theorem not_noncesUnique :
    ¬ ∀ (c : TxCrypto) (a : Adapter) (es : List TxEvent) (w : TxWorld) (o : MacAddr),
      run (step c) { adapter := a } es = some w → w.drawn o < 2 ^ 48 →
        NoncesUnique o w.written := by
  intro hclaim
  obtain ⟨w, hrun, hdrawn, hshared⟩ : ∃ w,
      run (step nullCrypto) { adapter := ccmpAdapter 256 } (transmit 300) = some w ∧
        w.drawn apAddr < 2 ^ 48 ∧ ¬ NoncesUnique apAddr w.written :=
    exists_run_of_any (by decide +kernel)
  exact hshared (hclaim _ _ _ w apAddr hrun hdrawn)

end Rtl88x2eu.Xmit
