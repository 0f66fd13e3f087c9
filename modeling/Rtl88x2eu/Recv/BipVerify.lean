import Rtl88x2eu.Crypto.Omac
import Rtl88x2eu.Lib.Traced
import Rtl88x2eu.Recv.MgmtProtect

/-!
# Checking BIP, octet by octet

`rtw_bip_verify` as a program that reads the memory around a frame. It says which octets it reads,
by their place behind the start of the frame, and its state is the packet number `*ipn`. What it
returns is what the function of the frame returns that the receive path calls.

## Main definitions

* `BipCall`, `BipCall.rtwBipVerify`, `Guarded`

## Main results

* `outcome_rtwBipVerify`: the program is the function of the frame
* `safe_rtwBipVerify`: no octet outside the frame is read
* `guarded_run`
-/

namespace Rtl88x2eu

/-! ## The receiver, octet by octet -/

section

open Traced

/-- A program that counts packet numbers and says which octets it reads, by their place behind the
start of the frame. -/
abbrev BipProg (α : Type) := Prog ℕ ℤ α

variable (m : ℤ → UInt8)

def octetAt (i : ℤ) : BipProg UInt8 := do
  emit i
  return m i

def octetsAt (i : ℤ) : ℕ → BipProg Bytes
  | 0 => return []
  | n + 1 => do
    let x ← octetAt m i
    let xs ← octetsAt (i + 1) n
    return x :: xs

variable (aes : Bytes → Block → Block)

/-- `_bip_gcmp_protect`, of a frame in memory. -/
def bipGcmpProtectAt (init : Bool) (len : ℕ) (keyLen : ℕ) (key data : Bytes) :
    BipProg (Option Bytes) := do
  let addr2 ← octetsAt m 10 6
  let gcmpIpn ← octetsAt m (len - 16 - 6) 6
  return bipGcmpProtect aes init keyLen (bipNonce addr2 gcmpIpn) key data

/-- `rtw_calculate_bip_mic`, of a frame in memory. -/
def rtwCalculateBipMic (init : Bool) (gmcs : SecurityType) (len : ℕ) (key data : Bytes) :
    BipProg (Option Bytes) :=
  match gmcs with
  | .bipCmac128 => return bipCcmpProtect aes init 16 key data
  | .bipCmac256 => return bipCcmpProtect aes init 32 key data
  | .bipGmac128 => bipGcmpProtectAt m aes init len 16 key data
  | .bipGmac256 => bipGcmpProtectAt m aes init len 32 key data
  | _ => return none

/-- A call of `rtw_bip_verify`; `mem` and `init` when `rtw_zmalloc` and `aes_encrypt_init` find
memory. -/
structure BipCall where
  gmcs : SecurityType
  pktLen : ℕ
  frame : ℤ → UInt8
  flen : ℕ
  key : Bytes
  keyid : ℕ
  mem : Bool := true
  init : Bool := true

/-- The length of a code. -/
def BipCall.micLen (x : BipCall) : ℕ := if x.gmcs = .bipCmac128 then 8 else 16

def BipCall.mmeOffset (x : BipCall) : ℕ := if x.micLen = 8 then 18 else 26

/-- The end of `rtw_bip_verify`: the code is made again and compared. -/
def bipCheck (x : BipCall) (pktIpn : ℕ) : BipProg Ret := do
  let body ← octetsAt x.frame 24 (x.flen - 24 - x.micLen)
  let frameCtl ← octetsAt x.frame 0 2
  let addrs ← octetsAt x.frame 4 18
  let aad := Bytes.ofLe16 (frameCtl.le16 0 &&& 0xc7ff) ++ addrs ++ body ++
    List.replicate x.micLen 0
  match ← rtwCalculateBipMic x.frame aes x.init x.gmcs x.pktLen x.key aad with
  | none => return .fail
  | some mic =>
    let code ← octetsAt x.frame (x.flen - x.micLen) x.micLen
    if mic.take x.micLen = code then
      become pktIpn
      return .success
    else return .fail

/-- The program of the call. -/
def BipCall.rtwBipVerify (x : BipCall) : BipProg Ret := do
  if x.flen < 24 + x.micLen then return .rxHandled
  else
    let mme : ℤ := x.flen - x.mmeOffset
    let code ← octetAt x.frame mme
    if code ≠ mmeIe then return .rxHandled
    else
      let pktKeyid ← octetsAt x.frame (mme + 2) 2
      if pktKeyid.le16 0 ≠ x.keyid then return .fail
      else
        let pn ← octetsAt x.frame (mme + 4) 6
        let pktIpn := pn.le16 0 + 65536 * (pn.le16 2 + 65536 * pn.le16 4)
        let ipn ← current
        if pktIpn ≤ ipn then return .fail
        else if !x.mem then return .fail
        else bipCheck aes x pktIpn

/-- The octets from a place on. -/
def cells (i : ℤ) (n : ℕ) : Bytes := (List.range n).map fun k : ℕ => m (i + k)

theorem cells_succ (i : ℤ) (n : ℕ) : cells m i (n + 1) = m i :: cells m (i + 1) n := by
  simp [cells, List.range_succ_eq_map, Function.comp_def, add_comm, add_left_comm]

variable {m} {aes} {P : ℤ → Prop} {ipn : ℕ} {x : BipCall}

@[simp] theorem outcome_octetAt (i : ℤ) : outcome (octetAt m i) ipn = some (m i, ipn) := rfl

theorem safe_octetAt {i : ℤ} : Safe P (octetAt m i) ipn ↔ P i := by
  simp [octetAt, safe_bind]

@[simp] theorem outcome_octetsAt (i : ℤ) (n : ℕ) :
    outcome (octetsAt m i n) ipn = some (cells m i n, ipn) := by
  induction n generalizing i with
  | zero => rfl
  | succ n ih => simp [octetsAt, outcome_bind, ih, cells_succ]

theorem safe_octetsAt {i : ℤ} {n : ℕ} :
    Safe P (octetsAt m i n) ipn ↔ ∀ k < n, P (i + k) := by
  induction n generalizing i with
  | zero => simp [octetsAt]
  | succ n ih =>
    have hsafe : Safe P (octetsAt m i (n + 1)) ipn ↔ P i ∧ ∀ k < n, P (i + 1 + k) := by
      simp [octetsAt, safe_bind, safe_octetAt, ih]
    rw [hsafe]
    constructor
    · rintro ⟨hi, hrest⟩ (_ | k) hk
      · simpa using hi
      · have hk := hrest k (by omega)
        push_cast
        rwa [add_comm (k : ℤ), ← add_assoc]
    · intro h
      refine ⟨by simpa using h 0 (by omega), fun k hk => ?_⟩
      have hk := h (k + 1) (by omega)
      push_cast at hk
      rwa [add_comm (k : ℤ), ← add_assoc] at hk

def InFrame (n : ℕ) (i : ℤ) : Prop := 0 ≤ i ∧ i < n

theorem safe_octetsAt_inFrame {i : ℤ} {n len : ℕ} (hi : 0 ≤ i) (hlen : i + n ≤ len) :
    Safe (InFrame len) (octetsAt m i n) ipn :=
  safe_octetsAt.mpr fun k hk => ⟨by omega, by omega⟩

/-! ### What is found -/

@[simp] theorem length_cells (i : ℤ) (n : ℕ) : (cells m i n).length = n := by simp [cells]

theorem u8_cells {i : ℤ} {n k : ℕ} (hk : k < n) : (cells m i n).u8 k = m (i + k) := by
  rw [Bytes.u8, List.getD_eq_getElem _ _ (by rwa [length_cells])]
  simp [cells]

theorem le16_cells {i : ℤ} {n k : ℕ} (hk : k + 1 < n) :
    (cells m i n).le16 k = (m (i + k)).toNat + 256 * (m (i + k + 1)).toNat := by
  rw [Bytes.le16, u8_cells (by omega), u8_cells hk]
  push_cast
  rw [add_assoc]

theorem cells_part {i n len : ℕ} (h : i + n ≤ len) :
    cells m i n = ((cells m 0 len).drop i).take n := by
  apply List.ext_getElem
  · simp
    omega
  · intro k hk _
    simp [cells]

def BipCall.octets (x : BipCall) : Bytes := cells x.frame 0 x.flen

@[simp] theorem BipCall.length_octets (x : BipCall) : x.octets.length = x.flen := length_cells _ _

theorem BipCall.u8_octets {i : ℕ} (hi : i < x.flen) : x.octets.u8 i = x.frame i := by
  rw [octets, u8_cells hi, zero_add]

variable (aes)

def BipCall.crypto (base : Crypto) (x : BipCall) : Crypto :=
  { base with calculateBipMic := bipCode aes x.init }

def BipCall.sec (x : BipCall) (ipn : ℕ) : SecurityPriv :=
  { dot11wCipher := x.gmcs, dot11wBIPKey := x.key, dot11wBIPKeyid := x.keyid,
    dot11wBIPrxpn := ipn }

theorem outcome_rtwCalculateBipMic {key data : Bytes} (hshort : 24 + x.micLen ≤ x.flen)
    (hlen : x.pktLen = x.flen) :
    outcome (rtwCalculateBipMic x.frame aes x.init x.gmcs x.pktLen key data) ipn =
      some (bipCode aes x.init x.gmcs x.octets x.pktLen key data, ipn) := by
  have haddr : cells x.frame 10 6 = (x.octets.drop 10).take 6 := by
    refine cells_part (i := 10) ?_
    omega
  have hipn (hmic : x.micLen = 16) :
      cells x.frame (x.pktLen - 16 - 6) 6 = (x.octets.drop (x.pktLen - 22)).take 6 := by
    have hplace : (x.pktLen : ℤ) - 16 - 6 = (x.pktLen - 22 : ℕ) := by omega
    rw [hplace]
    refine cells_part ?_
    omega
  have hgmac (keyLen : ℕ) (hmic : x.micLen = 16) :
      outcome (bipGcmpProtectAt x.frame aes x.init x.pktLen keyLen key data) ipn =
        some (bipGcmpProtect aes x.init keyLen (bipNonce ((x.octets.drop 10).take 6)
          ((x.octets.drop (x.pktLen - 22)).take 6)) key data, ipn) := by
    simp [bipGcmpProtectAt, outcome_bind, haddr, hipn hmic]
  cases hgmcs : x.gmcs
  case bipGmac128 => exact hgmac 16 (by rw [BipCall.micLen, hgmcs]; rfl)
  case bipGmac256 => exact hgmac 32 (by rw [BipCall.micLen, hgmcs]; rfl)
  all_goals rfl

theorem outcome_bipCheck {pktIpn : ℕ} (hshort : 24 + x.micLen ≤ x.flen)
    (hlen : x.pktLen = x.flen) :
    outcome (bipCheck aes x pktIpn) ipn =
      some (match bipCode aes x.init x.gmcs x.octets x.pktLen x.key
        (Bytes.ofLe16 (frameCtrl x.octets &&& 0xc7ff) ++ (x.octets.drop 4).take 18 ++
          (x.octets.drop 24).take (x.flen - 24 - x.micLen) ++ List.replicate x.micLen 0) with
      | none => (.fail, ipn)
      | some mic => if mic.take x.micLen = x.octets.drop (x.flen - x.micLen) then
          (.success, pktIpn) else (.fail, ipn)) := by
  have hbody : cells x.frame 24 (x.flen - 24 - x.micLen) =
      (x.octets.drop 24).take (x.flen - 24 - x.micLen) := cells_part (i := 24) (by omega)
  have haddrs : cells x.frame 4 18 = (x.octets.drop 4).take 18 := cells_part (i := 4) (by omega)
  have hfc : (cells x.frame 0 2).le16 0 = frameCtrl x.octets := by
    rw [frameCtrl, Bytes.le16, Bytes.le16, u8_cells (by omega), u8_cells (by omega),
      BipCall.u8_octets (by omega), BipCall.u8_octets (by omega)]
    rfl
  have hcode : cells x.frame (x.flen - x.micLen) x.micLen = x.octets.drop (x.flen - x.micLen) := by
    have hplace : (x.flen : ℤ) - x.micLen = (x.flen - x.micLen : ℕ) := by omega
    have hpart : cells x.frame (x.flen - x.micLen : ℕ) x.micLen =
        (x.octets.drop (x.flen - x.micLen)).take x.micLen := cells_part (by omega)
    rw [hplace, hpart]
    exact List.take_of_length_le (by rw [List.length_drop, BipCall.length_octets]; omega)
  simp only [bipCheck, outcome_bind, outcome_octetsAt, Option.bind_some, hbody, haddrs, hfc,
    outcome_rtwCalculateBipMic aes hshort hlen]
  cases bipCode aes x.init x.gmcs x.octets x.pktLen x.key _ with
  | none => rfl
  | some mic =>
    simp only [outcome_bind, outcome_octetsAt, Option.bind_some, hcode]
    split_ifs <;> rfl

theorem BipCall.micLen_cases (x : BipCall) : x.micLen = 8 ∨ x.micLen = 16 := by
  rw [BipCall.micLen]
  split_ifs
  · exact .inl rfl
  · exact .inr rfl

theorem BipCall.mmeOffset_eq (x : BipCall) : x.mmeOffset = x.micLen + 10 := by
  rw [BipCall.mmeOffset]
  rcases x.micLen_cases with h | h <;> rw [h] <;> rfl

theorem le16_drop_octets {j k : ℕ} (h : j + k + 1 < x.flen) :
    Bytes.le16 (x.octets.drop j) k =
      (x.frame (j + k)).toNat + 256 * (x.frame (j + k + 1)).toNat := by
  rw [Bytes.le16, Bytes.u8_drop, Bytes.u8_drop, BipCall.u8_octets (by omega),
    BipCall.u8_octets (by omega)]
  push_cast
  rw [add_assoc]

/-- **The program is the function of the frame.** -/
theorem outcome_rtwBipVerify (base : Crypto) (hlen : x.pktLen = x.flen) :
    outcome (x.rtwBipVerify aes) ipn =
      some (rtwBipVerify (x.crypto aes base) x.mem (x.sec ipn) x.pktLen x.octets) := by
  unfold rtwBipVerify
  extract_lets ipn' micLen mme pktIpn body aad
  have hmicLen : micLen = x.micLen := rfl
  have hsec : (x.sec ipn).dot11wBIPKeyid = x.keyid ∧ ipn' = ipn := ⟨rfl, rfl⟩
  have hbody : body = (x.octets.drop 24).take (x.flen - 24 - x.micLen) := by
    rw [← x.length_octets]
    rfl
  have haad : aad = Bytes.ofLe16 (frameCtrl x.octets &&& 0xc7ff) ++ (x.octets.drop 4).take 18 ++
      body ++ List.replicate x.micLen 0 := rfl
  rw [BipCall.rtwBipVerify, hmicLen, hsec.1, hsec.2]
  by_cases hshort : x.flen < 24 + x.micLen
  · rw [if_pos hshort, if_pos (by rwa [BipCall.length_octets])]
    rfl
  rw [if_neg hshort, if_neg (by rwa [BipCall.length_octets])]
  -- where the MME starts
  have hoffset := x.mmeOffset_eq
  have hmic := x.micLen_cases
  obtain ⟨j, hj⟩ : ∃ j : ℕ, j = x.flen - x.mmeOffset := ⟨_, rfl⟩
  have hplace : (x.flen : ℤ) - x.mmeOffset = j := by omega
  have hmme : mme = x.octets.drop j := by
    rw [hj, ← x.length_octets]
    rfl
  have hcode : mme.u8 0 = x.frame j := by
    rw [hmme, Bytes.u8_drop, BipCall.u8_octets (by omega), Nat.add_zero]
  have hle16 (k : ℕ) (hk : k < 17) (n i : ℕ) (hi : i + 1 < n) (h : k + i < 17) :
      (cells x.frame (j + k) n).le16 i = mme.le16 (k + i) := by
    rw [le16_cells hi, hmme, le16_drop_octets (by omega)]
    push_cast
    rw [add_assoc (j : ℤ)]
  have hkeyid : (cells x.frame (j + 2) 2).le16 0 = mme.le16 2 :=
    hle16 2 (by omega) 2 0 (by omega) (by omega)
  have hpn (i : ℕ) (hi : i + 1 < 6) :
      (cells x.frame (j + 4) 6).le16 i = mme.le16 (4 + i) :=
    hle16 4 (by omega) 6 i hi (by omega)
  have hipn : (cells x.frame (j + 4) 6).le16 0 + 65536 * ((cells x.frame (j + 4) 6).le16 2 +
      65536 * (cells x.frame (j + 4) 6).le16 4) = pktIpn := by
    rw [hpn 0 (by omega), hpn 2 (by omega), hpn 4 (by omega)]
  simp only [hplace, outcome_bind, outcome_octetAt, Option.bind_some]
  clear_value mme pktIpn
  rw [← hcode]
  by_cases hmme : mme.u8 0 ≠ mmeIe
  · rw [if_pos hmme, if_pos hmme]
    rfl
  rw [if_neg hmme, if_neg hmme]
  simp only [outcome_bind, outcome_octetsAt, Option.bind_some, hkeyid]
  by_cases hid : mme.le16 2 ≠ x.keyid
  · rw [if_pos hid, if_pos hid]
    rfl
  rw [if_neg hid, if_neg hid]
  simp only [outcome_bind, outcome_octetsAt, Option.bind_some, outcome_current, hipn]
  by_cases hold : pktIpn ≤ ipn
  · rw [if_pos hold, if_pos hold]
    rfl
  rw [if_neg hold, if_neg hold]
  cases hmem : x.mem with
  | false => rfl
  | true =>
    rw [if_neg (by decide), if_neg (by decide), outcome_bipCheck aes (by omega) hlen,
      BipCall.length_octets, ← hbody, ← haad]
    rfl

end

section

open Traced

variable {aes : Bytes → Block → Block} {x : BipCall} {ipn : ℕ}

theorem safe_rtwCalculateBipMic {key data : Bytes} (hshort : 24 + x.micLen ≤ x.flen)
    (hlen : x.pktLen = x.flen) :
    Safe (InFrame x.flen)
      (rtwCalculateBipMic x.frame aes x.init x.gmcs x.pktLen key data) ipn := by
  have hgmac (keyLen : ℕ) (hmic : x.micLen = 16) : Safe (InFrame x.flen)
      (bipGcmpProtectAt x.frame aes x.init x.pktLen keyLen key data) ipn := by
    refine (safe_octetsAt_inFrame (by omega) (by omega)).bind fun _ _ _ => ?_
    refine (safe_octetsAt_inFrame (by omega) (by omega)).bind fun _ _ _ => ?_
    exact safe_pure _ _ _
  cases hgmcs : x.gmcs
  case bipGmac128 => exact hgmac 16 (by rw [BipCall.micLen, hgmcs]; rfl)
  case bipGmac256 => exact hgmac 32 (by rw [BipCall.micLen, hgmcs]; rfl)
  all_goals exact safe_pure _ _ _

theorem safe_bipCheck {pktIpn : ℕ} (hshort : 24 + x.micLen ≤ x.flen) (hlen : x.pktLen = x.flen) :
    Safe (InFrame x.flen) (bipCheck aes x pktIpn) ipn := by
  have hmic := x.micLen_cases
  refine (safe_octetsAt_inFrame (by omega) (by omega)).bind fun body _ _ => ?_
  refine (safe_octetsAt_inFrame (by omega) (by omega)).bind fun frameCtl _ _ => ?_
  refine (safe_octetsAt_inFrame (by omega) (by omega)).bind fun addrs _ _ => ?_
  refine (safe_rtwCalculateBipMic hshort hlen).bind fun mic _ _ => ?_
  cases mic with
  | none => exact safe_pure _ _ _
  | some mic =>
    refine (safe_octetsAt_inFrame (by omega) (by omega)).bind fun code _ _ => ?_
    split_ifs
    · exact Safe.bind (safe_become _ _ _) fun _ _ _ => safe_pure _ _ _
    · exact safe_pure _ _ _

/-- **No octet outside the frame is read.** The MME is counted back from the end, behind a header
that is there. -/
theorem safe_rtwBipVerify (hlen : x.pktLen = x.flen) :
    Safe (InFrame x.flen) (x.rtwBipVerify aes) ipn := by
  have hmic := x.micLen_cases
  have hoffset := x.mmeOffset_eq
  rw [BipCall.rtwBipVerify]
  by_cases hshort : x.flen < 24 + x.micLen
  · rw [if_pos hshort]
    exact safe_pure _ _ _
  rw [if_neg hshort]
  refine Safe.bind (safe_octetAt.mpr ⟨by omega, by omega⟩) fun code _ _ => ?_
  by_cases hcode : code ≠ mmeIe
  · rw [if_pos hcode]
    exact safe_pure _ _ _
  rw [if_neg hcode]
  refine (safe_octetsAt_inFrame (by omega) (by omega)).bind fun keyid _ _ => ?_
  by_cases hkeyid : keyid.le16 0 ≠ x.keyid
  · rw [if_pos hkeyid]
    exact safe_pure _ _ _
  rw [if_neg hkeyid]
  refine (safe_octetsAt_inFrame (by omega) (by omega)).bind fun pn _ _ => ?_
  refine Safe.bind (safe_current _ _) fun ipn _ _ => ?_
  split_ifs
  · exact safe_pure _ _ _
  · exact safe_pure _ _ _
  · exact safe_bipCheck (by omega) hlen

/-- A sequence of calls that reads inside its frames and refuses replay. -/
def Guarded (aes : Bytes → Block → Block) : ℕ → List BipCall → Prop
  | _, [] => True
  | ipn, x :: xs =>
    Safe (InFrame x.flen) (x.rtwBipVerify aes) ipn ∧
      ∃ ret ipn', outcome (x.rtwBipVerify aes) ipn = some (ret, ipn') ∧
        (ret = .success ∧ ipn < ipn' ∨ ret ≠ .success ∧ ipn' = ipn) ∧ Guarded aes ipn' xs

/-- Every sequence is guarded. -/
theorem guarded_run (base : Crypto) (xs : List BipCall) (hlen : ∀ x ∈ xs, x.pktLen = x.flen)
    (ipn : ℕ) : Guarded aes ipn xs := by
  induction xs generalizing ipn with
  | nil => trivial
  | cons x xs ih =>
    have hx := hlen x List.mem_cons_self
    refine ⟨safe_rtwBipVerify hx, _, _, outcome_rtwBipVerify aes base hx, ?_, ?_⟩
    · exact rtwBipVerify_cases _ _ _ _ _
    · exact ih (fun y hy => hlen y (List.mem_cons_of_mem _ hy)) _

end

end Rtl88x2eu
