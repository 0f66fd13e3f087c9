import Rtl88x2eu.Ie.Edit
import Rtl88x2eu.Scan.Network

/-!
# Revealing a hidden network name

`rtw_absorb_ssid_ifneed` of `rtw_wlan_util.c` splices the name that a frame tells into the elements
of a scan result that hides it. The length of the elements grows by the whole new name, so the
splice is right only where the old one was empty.

## Main definitions

* `rtwAbsorbSsidIfneed`, `InSync`, `Reveals`

## Main results

* `reveals_iff`: there was memory, and the old element was empty
-/

namespace Rtl88x2eu.Scan

open Ie

/-- The kind of frame, and where its elements begin. -/
def bssTypeOf (subtype : ℕ) : BssType × ℕ :=
  if subtype = 0x80 then (.bcn, 12)            -- `WIFI_BEACON`
  else if subtype = 0x50 then (.probRsp, 12)   -- `WIFI_PROBERSP`
  else if subtype = 0x40 then (.probReq, 0)    -- `WIFI_PROBEREQ`
  else (.undef, 12)

/-- The element list of a scan result. -/
def WlanBssidEx.iesState (n : WlanBssidEx) : IesState := ⟨n.ies, n.ieLength, false⟩

def absorbSsid (malloc : Bool) (ieOffset : ℕ) (ssid : Bytes) (snetwork : WlanBssidEx) :
    WlanBssidEx :=
  let o := rtwGetIe (snetwork.ies.drop ieOffset) 0 (snetwork.ieLength - ieOffset)
  match o.found.join with
  | none => snetwork
  | some q =>
    if !malloc then snetwork
    else
      let p := ieOffset + q
      let nextIe := p + 2 + o.len
      let backupIE := snetwork.ies.read nextIe (snetwork.ieLength - nextIe)
      { snetwork with
        ssid := ssid
        ies := ((snetwork.ies.overwrite (p + 1) [UInt8.ofNat ssid.length]).overwrite (p + 2)
          ssid).overwrite (p + 2 + ssid.length) backupIE
        ieLength := snetwork.ieLength + ssid.length }

def updateFirst (p : WlanNetwork → Bool) (f : WlanNetwork → WlanNetwork) :
    List WlanNetwork → List WlanNetwork
  | [] => []
  | n :: queue => if p n then f n :: queue else n :: updateFirst p f queue

/-- The function, on the scanned queue. -/
def rtwAbsorbSsidIfneed (malloc : Bool) (queue : List WlanNetwork) (bssid : WlanBssidEx)
    (pframe : Bytes) : WlanBssidEx × List WlanNetwork :=
  let kind := bssTypeOf (getFrameSubType pframe)
  let mac := getAddr2 pframe
  ({ bssid with reserved0 := kind.1 },
    -- `_rtw_find_network` finds nothing for the zero address
    if mac = .zero then queue
    else updateFirst (fun scanned => scanned.network.macAddress = mac) (fun scanned =>
      if hiddenSsidAp scanned.network && !hiddenSsidAp bssid then
        { scanned with network := absorbSsid malloc kind.2 bssid.ssid scanned.network }
      else scanned) queue)

theorem updateFirst_append {p : WlanNetwork → Bool} {f : WlanNetwork → WlanNetwork}
    {front back : List WlanNetwork} {n : WlanNetwork} (hfront : ∀ m ∈ front, p m = false)
    (hn : p n = true) : updateFirst p f (front ++ n :: back) = front ++ f n :: back := by
  induction front with
  | nil => simp [updateFirst, hn]
  | cons m front ih =>
    rw [List.cons_append, updateFirst, hfront m List.mem_cons_self,
      ih fun k hk => hfront k (.tail _ hk)]
    rfl

/-! ## The splice -/

variable {pre : Bytes} {A B : List Elem} {e : Elem} {n : WlanBssidEx} {ssid : Bytes}
  {ieOffset : ℕ} {malloc : Bool}

/-- The search comes to the element behind `pre` and `A`. -/
def InSync (pre : Bytes) (A : List Elem) (ieOffset : ℕ) (n : WlanBssidEx) : Prop :=
  ∃ q, (rtwGetIe (n.ies.drop ieOffset) 0 (n.ieLength - ieOffset)).found.join = some q ∧
    ieOffset + q = pre.length + (encode A).length

/-- The elements are those of before, with the new name in the element that held the old one, in
an array of the same size. -/
structure Reveals (pre : Bytes) (A B : List Elem) (e : Elem) (ssid : Bytes)
    (n n' : WlanBssidEx) : Prop where
  short : ssid.length < 256
  holds : Holds pre (A ++ e.withBody ssid short :: B) n'.iesState
  size : n'.ies.length = n.ies.length

/-- A search from where the elements of the entry begin is in step with them. -/
theorem inSync_of_offset (h : Holds pre (A ++ e :: B) n.iesState) (hA : ∀ x ∈ A, x.id ≠ 0)
    (he : e.id = 0) : InSync pre A pre.length n := by
  obtain ⟨⟨rest, hies⟩, hlen⟩ := h
  have hdrop : n.ies.drop pre.length = encode (A ++ e :: B) ++ rest := by
    rw [show n.ies = _ from hies, List.drop_left]
  have hsize : n.ieLength - pre.length = (encode (A ++ e :: B)).length := by
    rw [show n.ieLength = _ from hlen, Nat.add_sub_cancel_left]
  refine ⟨(encode A).length, ?_, rfl⟩
  rw [hdrop, hsize]
  exact (getIe_some hA he rest).1

theorem len_of_inSync (h : Holds pre (A ++ e :: B) n.iesState) {q : ℕ}
    (hq : (rtwGetIe (n.ies.drop ieOffset) 0 (n.ieLength - ieOffset)).found.join = some q)
    (hpos : ieOffset + q = pre.length + (encode A).length) :
    (rtwGetIe (n.ies.drop ieOffset) 0 (n.ieLength - ieOffset)).len = e.body.length := by
  obtain ⟨⟨rest, hies⟩, -⟩ := h
  have hsplit : n.ies = (pre ++ encode A) ++ (e.bytes ++ (encode B ++ rest)) := by
    rw [show n.ies = _ from hies, encode_append, encode_cons]
    simp only [List.append_assoc]
  have hbody : bodyLen (n.ies.drop ieOffset) q = e.body.length := by
    rw [bodyLen, Bytes.u8_drop, ← add_assoc, hpos, ← List.length_append, hsplit]
    exact bodyLen_bytes (pre ++ encode A) e (encode B ++ rest)
  unfold rtwGetIe at hq ⊢
  split_ifs at hq ⊢ with hlimit
  · cases hq
  · change ((IeSearch.run _ _ _).join.elim 0 fun q => bodyLen _ q + 0) = _
    rw [show (IeSearch.run _ _ _).join = some q from hq]
    exact hbody

/-- **A name is spliced into an empty element.** -/
theorem reveals_absorbSsid (h : Holds pre (A ++ e :: B) n.iesState)
    (hsync : InSync pre A ieOffset n) (hbody : e.body = []) (hssid : ssid.length < 256)
    (hroom : pre.length + (encode (A ++ e.withBody ssid hssid :: B)).length ≤ n.ies.length) :
    Reveals pre A B e ssid n (absorbSsid true ieOffset ssid n) := by
  obtain ⟨q, hq, hpos⟩ := hsync
  have hlen := len_of_inSync h hq hpos
  obtain ⟨⟨rest, hies⟩, hiesLen⟩ := h
  have hsplit : n.ies = (pre ++ encode A) ++ (e.bytes ++ (encode B ++ rest)) := by
    rw [show n.ies = _ from hies, encode_append, encode_cons]
    simp only [List.append_assoc]
  have hbytes : e.bytes = [e.id, 0] := by
    rw [Elem.bytes, hbody]
    rfl
  have hsize : (encode (A ++ e :: B)).length = (encode A).length + (2 + (encode B).length) := by
    rw [encode_append, encode_cons, List.length_append, List.length_append, hbytes]
    rfl
  have htotal : n.ieLength = pre.length + (encode (A ++ e :: B)).length := hiesLen
  have hhead : ieOffset + q = (pre ++ encode A).length := hpos.trans List.length_append.symm
  have hbackup : n.ies.read (ieOffset + q + 2 + 0) (n.ieLength - (ieOffset + q + 2 + 0)) =
      encode B := by
    rw [hsplit, ← List.append_assoc]
    refine read_append_of_eq ?_ ?_
    · rw [List.length_append, hhead, hbytes]
      rfl
    · omega
  have hnew : (e.withBody ssid hssid).bytes = [e.id, UInt8.ofNat ssid.length] ++ ssid := rfl
  have hies' : (absorbSsid true ieOffset ssid n).ies = pre ++
      (encode (A ++ e.withBody ssid hssid :: B) ++
        ((encode B ++ rest).drop ssid.length).drop (encode B).length) := by
    rw [absorbSsid]
    dsimp only
    rw [hq, hlen, hbody]
    simp only [Bool.not_true, Bool.false_eq_true, if_false, List.length_nil, hbackup]
    have hfirst : n.ies.overwrite (ieOffset + q + 1) [UInt8.ofNat ssid.length] =
        (pre ++ encode A ++ [e.id, UInt8.ofNat ssid.length]) ++ (encode B ++ rest) := by
      rw [hsplit, hbytes]
      have hcons : pre ++ encode A ++ ([e.id, 0] ++ (encode B ++ rest)) =
          (pre ++ encode A ++ [e.id]) ++ (0 :: (encode B ++ rest)) := by
        simp only [List.append_assoc, List.cons_append, List.nil_append]
      rw [hcons, overwrite_append_of_eq (by rw [List.length_append, ← hhead]; rfl)]
      simp only [List.append_assoc, List.cons_append, List.nil_append, List.length_singleton,
        List.drop_succ_cons, List.drop_zero]
    rw [hfirst, overwrite_append_of_eq (by rw [List.length_append, ← hhead]; rfl),
      ← List.append_assoc, overwrite_append_of_eq (by
        rw [List.length_append, List.length_append, ← hhead]
        rfl), encode_append, encode_cons, hnew]
    simp only [List.append_assoc]
  refine ⟨hssid, ⟨⟨_, hies'⟩, ?_⟩, ?_⟩
  · have hgrow : (encode (A ++ e.withBody ssid hssid :: B)).length =
        (encode (A ++ e :: B)).length + ssid.length := by
      rw [hsize, encode_append, encode_cons, hnew, List.length_append, List.length_append,
        List.length_append]
      simp only [List.length_cons, List.length_nil]
      omega
    have hieLength : (absorbSsid true ieOffset ssid n).ieLength = n.ieLength + ssid.length := by
      rw [absorbSsid]
      dsimp only
      rw [hq]
      rfl
    show (absorbSsid true ieOffset ssid n).ieLength = _
    rw [hieLength, hgrow, htotal, add_assoc]
  · have hold : n.ies.length = pre.length + ((encode A).length + (2 + ((encode B).length +
        rest.length))) := by
      rw [hsplit, hbytes]
      simp only [List.length_append, List.length_cons, List.length_nil]
      omega
    have hgrow : (encode (A ++ e.withBody ssid hssid :: B)).length =
        (encode A).length + (2 + ssid.length + (encode B).length) := by
      rw [encode_append, encode_cons, hnew, List.length_append, List.length_append,
        List.length_append]
      rfl
    rw [hies', List.length_append, List.length_append, List.length_drop, List.length_drop,
      List.length_append]
    omega

theorem ieLength_absorbSsid (hsync : InSync pre A ieOffset n) :
    (absorbSsid true ieOffset ssid n).ieLength = n.ieLength + ssid.length := by
  obtain ⟨q, hq, -⟩ := hsync
  rw [absorbSsid]
  dsimp only
  rw [hq]
  rfl

theorem absorbSsid_of_not_malloc : absorbSsid false ieOffset ssid n = n := by
  unfold absorbSsid
  dsimp only
  split <;> rfl

theorem not_reveals_self (h : Holds pre (A ++ e :: B) n.iesState) (hne : ssid ≠ e.body) :
    ¬ Reveals pre A B e ssid n n := by
  rintro ⟨hssid, ⟨⟨rest', hies'⟩, hlen'⟩, -⟩
  obtain ⟨⟨rest, hies⟩, hlen⟩ := h
  have hsize : (encode (A ++ e :: B)).length = (encode (A ++ e.withBody ssid hssid :: B)).length :=
    Nat.add_left_cancel (hlen.symm.trans hlen')
  have hall : encode (A ++ e :: B) = encode (A ++ e.withBody ssid hssid :: B) :=
    (List.append_inj (List.append_cancel_left (hies.symm.trans hies')) hsize).1
  rw [encode_append, encode_append, encode_cons, encode_cons] at hall
  have hbytes := List.append_cancel_right (List.append_cancel_left hall)
  exact hne (List.cons.inj (List.cons.inj hbytes).2).2.symm

/-- **A hidden name is revealed exactly when there is memory and the old element was empty**, for
the first entry of the BSSID and a search that is in step with its elements. -/
theorem reveals_iff {front back : List WlanNetwork} {scanned : WlanNetwork} {bssid : WlanBssidEx}
    {pframe : Bytes} (hfront : ∀ m ∈ front, m.network.macAddress ≠ getAddr2 pframe)
    (hmac : scanned.network.macAddress = getAddr2 pframe) (hzero : getAddr2 pframe ≠ .zero)
    (h : Holds pre (A ++ e :: B) scanned.network.iesState)
    (hsync : InSync pre A (bssTypeOf (getFrameSubType pframe)).2 scanned.network)
    (hhidden : hiddenSsidAp scanned.network) (hbody : isHiddenSsid e.body e.body.length)
    (hshown : hiddenSsidAp bssid = false) (hssid : bssid.ssid.length < 256)
    (hroom : pre.length + (encode (A ++ e.withBody bssid.ssid hssid :: B)).length ≤
      scanned.network.ies.length) :
    ∃ n', (rtwAbsorbSsidIfneed malloc (front ++ scanned :: back) bssid pframe).2 =
        front ++ { scanned with network := n' } :: back ∧
      (Reveals pre A B e bssid.ssid scanned.network n' ↔ malloc = true ∧ e.body = []) := by
  refine ⟨absorbSsid malloc (bssTypeOf (getFrameSubType pframe)).2 bssid.ssid scanned.network,
    ?_, ?_⟩
  · have hfront' : ∀ m ∈ front,
        (decide (m.network.macAddress = getAddr2 pframe)) = false := fun m hm =>
      decide_eq_false (hfront m hm)
    show (if getAddr2 pframe = .zero then _ else _) = _
    rw [if_neg hzero, updateFirst_append hfront' (decide_eq_true hmac)]
    simp [hhidden, hshown]
  · have hne : bssid.ssid ≠ e.body := by
      intro heq
      rw [hiddenSsidAp, heq, hbody] at hshown
      exact absurd hshown (by decide)
    cases malloc with
    | false =>
      rw [absorbSsid_of_not_malloc]
      refine iff_of_false (not_reveals_self h hne) fun hmem => ?_
      exact Bool.false_ne_true hmem.1
    | true =>
      refine ⟨fun hreveals => ⟨rfl, ?_⟩, fun hempty =>
        reveals_absorbSsid h hsync hempty.2 hssid hroom⟩
      -- the length grows by the new name, and the list by the new name less the old one
      obtain ⟨hshort, ⟨-, hlen'⟩, -⟩ := hreveals
      have hgrow : (absorbSsid true (bssTypeOf (getFrameSubType pframe)).2 bssid.ssid
          scanned.network).ieLength = scanned.network.ieLength + bssid.ssid.length :=
        ieLength_absorbSsid hsync
      have hlen : scanned.network.ieLength = pre.length + (encode (A ++ e :: B)).length := h.iesLen
      have hlen'' : (absorbSsid true (bssTypeOf (getFrameSubType pframe)).2 bssid.ssid
          scanned.network).ieLength =
          pre.length + (encode (A ++ e.withBody bssid.ssid hshort :: B)).length := hlen'
      have hbytes : (e.withBody bssid.ssid hshort).bytes.length = bssid.ssid.length + 2 := rfl
      rw [encode_append, encode_cons, List.length_append, List.length_append, hbytes] at hlen''
      rw [encode_append, encode_cons, List.length_append, List.length_append,
        Elem.length_bytes] at hlen
      exact List.eq_nil_of_length_eq_zero (by omega)

def hiddenNetwork (name : Bytes) : WlanBssidEx :=
  { macAddress := ⟨2, 0, 0, 0, 0, 1⟩
    reserved0 := .bcn
    ssid := name
    ieLength := 12 + (2 + name.length) + 3
    ies := List.replicate 12 9 ++ ([0, UInt8.ofNat name.length] ++ name ++ [1, 1, 0x82]) ++
      List.replicate 16 0 }

def probeResponse : Bytes := [0x50] ++ List.replicate 9 0 ++ [2, 0, 0, 0, 0, 1]

/-- The name of the probe response. -/
def shownNetwork : WlanBssidEx := { ssid := [0x61, 0x62] }

/-- An empty name is replaced. -/
theorem reveals_iff_empty :
    let e : Elem := ⟨0, [], by decide⟩
    let rates : Elem := ⟨1, [0x82], by decide⟩
    ∃ n', (rtwAbsorbSsidIfneed true [{ network := hiddenNetwork [] }] shownNetwork
        probeResponse).2 = [{ network := n' }] ∧
      (Reveals (List.replicate 12 9) [] [rates] e [0x61, 0x62] (hiddenNetwork []) n' ↔
        true = true ∧ e.body = []) := by
  intro e rates
  have hholds : Holds (List.replicate 12 9) ([] ++ e :: [rates]) (hiddenNetwork []).iesState :=
    ⟨⟨List.replicate 16 0, rfl⟩, rfl⟩
  have hfirst : ∀ m ∈ ([] : List WlanNetwork), m.network.macAddress ≠ getAddr2 probeResponse := by
    simp
  let scanned : WlanNetwork := { network := hiddenNetwork [] }
  exact @reveals_iff (List.replicate 12 9) [] [rates] e true [] [] scanned shownNetwork
    probeResponse hfirst (by decide) (by decide) hholds
      (inSync_of_offset hholds (by simp) rfl) rfl rfl rfl
    (by decide) (by decide)

/-- **A name of zero octets leaves garbage behind.** -/
theorem not_reveals :
    let e : Elem := ⟨0, [0, 0], by decide⟩
    let rates : Elem := ⟨1, [0x82], by decide⟩
    ∃ n', (rtwAbsorbSsidIfneed true [{ network := hiddenNetwork [0, 0] }] shownNetwork
        probeResponse).2 = [{ network := n' }] ∧ n'.ieLength = 21 ∧
      ¬ Reveals (List.replicate 12 9) [] [rates] e [0x61, 0x62] (hiddenNetwork [0, 0]) n' := by
  intro e rates
  refine ⟨absorbSsid true 12 [0x61, 0x62] (hiddenNetwork [0, 0]), by decide, by decide, ?_⟩
  rintro ⟨hshort, ⟨-, hlen⟩, -⟩
  have hnew : (encode ([] ++ e.withBody [0x61, 0x62] hshort :: [rates])).length = 7 := rfl
  have hold : (absorbSsid true 12 [0x61, 0x62] (hiddenNetwork [0, 0])).iesState.iesLen = 21 := by
    decide
  rw [hnew, hold] at hlen
  exact absurd hlen (by decide)

end Rtl88x2eu.Scan
