import Rtl88x2eu.Crypto.Arcfour

/-!
# The Michael code

The message integrity code of TKIP. Octets are collected to words, and a word goes into the state by
steps that can all be undone: two messages that differ in one word have different codes, and so do
two keys on one message.

## Main definitions

* `MicData`, `secmicsetkey`, `secmicappendbyte`, `secmicappend`, `secgetmic`
* `seccalctkipmic`, `michael`

## Main results

* `michael_inj_priority`: the priority behind the addresses is fixed by the code
* `seccalctkipmic_eq`: the two ends make the code over the same octets
-/

namespace Rtl88x2eu

/-! ## The state -/

def rol32 (a n : UInt32) : UInt32 :=
  let left : UInt32 := a <<< n
  let right : UInt32 := a >>> (32 - n)
  let mask : UInt32 := 1 <<< n
  left ||| (right &&& (mask - 1))

def ror32 (a n : UInt32) : UInt32 := rol32 a (32 - n)

def swapHalves (a : UInt32) : UInt32 :=
  let right : UInt32 := (a &&& 0xff00ff00) >>> 8
  let left : UInt32 := (a &&& 0x00ff00ff) <<< 8
  right ||| left

structure MicData where
  K0 : UInt32 := 0
  K1 : UInt32 := 0
  L : UInt32 := 0
  R : UInt32 := 0
  M : UInt32 := 0
  nBytesInM : ℕ := 0
deriving DecidableEq, Repr

def secmicclear (d : MicData) : MicData := { d with L := d.K0, R := d.K1, M := 0, nBytesInM := 0 }

def secmicsetkey (key : Bytes) : MicData := secmicclear { K0 := le32 key 0, K1 := le32 key 4 }

/-- One half of a step: the right half takes up a function of the left one, and is added to it. -/
def micStep (f : UInt32 → UInt32) (s : UInt32 × UInt32) : UInt32 × UInt32 :=
  let r := s.2 ^^^ f s.1
  (s.1 + r, r)

def micBlock (s : UInt32 × UInt32) : UInt32 × UInt32 :=
  micStep (ror32 · 2) (micStep (rol32 · 3) (micStep swapHalves (micStep (rol32 · 17) s)))

def secmicappendbyte (d : MicData) (b : UInt8) : MicData :=
  let m := d.M ||| (b.toUInt32 <<< UInt32.ofNat (8 * d.nBytesInM))
  if 4 ≤ d.nBytesInM + 1 then
    let s := micBlock (d.L ^^^ m, d.R)
    { d with L := s.1, R := s.2, M := 0, nBytesInM := 0 }
  else { d with M := m, nBytesInM := d.nBytesInM + 1 }

def secmicappend (d : MicData) (src : Bytes) : MicData := src.foldl secmicappendbyte d

/-- The zeroes until the length is a multiple of four. -/
def secmicfill : ℕ → MicData → MicData
  | 0, d => d
  | n + 1, d => if d.nBytesInM = 0 then d else secmicfill n (secmicappendbyte d 0)

/-- `rtw_secgetmic`: less than four octets fill a word. -/
def secgetmic (d : MicData) : Bytes :=
  let d := secmicfill 4 (secmicappend d [0x5a, 0, 0, 0, 0])
  octets32 d.L ++ octets32 d.R

/-- The code of a message, as the transmit path makes it. -/
def michael (key msg : Bytes) : Bytes := secgetmic (secmicappend (secmicsetkey key) msg)

@[simp] theorem length_michael (key msg : Bytes) : (michael key msg).length = 8 := rfl

/-- The code of a receiver, over the addresses and the priority of a header. -/
def seccalctkipmic (key header data : Bytes) (pri : ℕ) : Bytes :=
  let toDs := header.u8 1 &&& 1 != 0
  let frDs := header.u8 1 &&& 2 != 0
  let da := if toDs then 16 else 4
  let sa := if toDs then (if frDs then 24 else 10) else (if frDs then 16 else 10)
  let d := secmicappend (secmicsetkey key) (header.mac da).toBytes
  let d := secmicappend d (header.mac sa).toBytes
  let d := secmicappend d [UInt8.ofNat pri, 0, 0, 0]
  secgetmic (secmicappend d data)

theorem secmicappend_append (d : MicData) (p q : Bytes) :
    secmicappend d (p ++ q) = secmicappend (secmicappend d p) q := List.foldl_append

/-- **The two ends make the code over the same octets.** -/
theorem seccalctkipmic_eq (key header data : Bytes) (pri : ℕ) :
    seccalctkipmic key header data pri =
      let toDs := header.u8 1 &&& 1 != 0
      let frDs := header.u8 1 &&& 2 != 0
      let da := if toDs then 16 else 4
      let sa := if toDs then (if frDs then 24 else 10) else (if frDs then 16 else 10)
      michael key ((header.mac da).toBytes ++ (header.mac sa).toBytes ++
        [UInt8.ofNat pri, 0, 0, 0] ++ data) := by
  simp only [michael, secmicappend_append]
  rfl

/-! ## What the code fixes -/

theorem micStep_injective (f : UInt32 → UInt32) : Function.Injective (micStep f) := by
  rintro ⟨l, r⟩ ⟨l', r'⟩ h
  obtain ⟨hl, hr⟩ := Prod.mk.inj h
  dsimp only at hl hr
  rw [hr] at hl
  obtain rfl : l = l' := by simpa using hl
  obtain rfl : r = r' := by simpa using hr
  rfl

theorem micBlock_injective : Function.Injective micBlock :=
  (micStep_injective _).comp ((micStep_injective _).comp
    ((micStep_injective _).comp (micStep_injective _)))

/-- Two states that have collected the same octets of a word. -/
structure MicData.Level (d e : MicData) : Prop where
  M : d.M = e.M
  nBytesInM : d.nBytesInM = e.nBytesInM

def MicData.halves (d : MicData) : UInt32 × UInt32 := (d.L, d.R)

theorem secmicappendbyte_level {d e : MicData} (h : d.Level e) (b : UInt8) :
    (secmicappendbyte d b).Level (secmicappendbyte e b) ∧
      ((secmicappendbyte d b).halves = (secmicappendbyte e b).halves → d.halves = e.halves) := by
  simp only [secmicappendbyte, h.M, h.nBytesInM]
  split_ifs
  · refine ⟨⟨rfl, rfl⟩, fun hs => ?_⟩
    have hblock := micBlock_injective (Prod.ext (congrArg Prod.fst hs) (congrArg Prod.snd hs))
    obtain ⟨hl, hr⟩ := Prod.mk.inj hblock
    obtain hl : d.L = e.L := by simpa using hl
    exact Prod.ext hl hr
  · exact ⟨⟨rfl, rfl⟩, id⟩

theorem secmicappend_level {d e : MicData} (h : d.Level e) (p : Bytes) :
    (secmicappend d p).Level (secmicappend e p) ∧
      ((secmicappend d p).halves = (secmicappend e p).halves → d.halves = e.halves) := by
  induction p generalizing d e with
  | nil => exact ⟨h, id⟩
  | cons b p ih =>
    obtain ⟨hlevel, hapart⟩ := secmicappendbyte_level h b
    obtain ⟨hlevel', hapart'⟩ := ih hlevel
    exact ⟨hlevel', hapart ∘ hapart'⟩

theorem secmicfill_level {d e : MicData} (h : d.Level e) (n : ℕ) :
    (secmicfill n d).halves = (secmicfill n e).halves → d.halves = e.halves := by
  induction n generalizing d e with
  | zero => exact id
  | succ n ih =>
    obtain ⟨hlevel, hapart⟩ := secmicappendbyte_level h 0
    simp only [secmicfill, h.nBytesInM]
    split_ifs
    · exact id
    · exact hapart ∘ ih hlevel

theorem octet32_toNat (v : UInt32) {i : ℕ} (hi : i < 4) :
    (octet32 v i).toNat = v.toNat / 256 ^ i % 256 := by
  have hshift : UInt32.toNat (UInt32.ofNat (8 * i)) % 32 = 8 * i := by
    rw [UInt32.toNat_ofNat_of_lt' (by simp [UInt32.size]; omega)]
    omega
  simp only [octet32, UInt32.toNat_toUInt8, UInt32.toNat_shiftRight, hshift,
    Nat.shiftRight_eq_div_pow, pow_mul]
  rfl

theorem octets32_injective : Function.Injective octets32 := by
  intro v w h
  simp only [octets32, List.cons.injEq, and_true] at h
  obtain ⟨h₀, h₁, h₂, h₃⟩ := h
  have hnat (i : ℕ) (hi : i < 4) (ho : octet32 v i = octet32 w i) :
      v.toNat / 256 ^ i % 256 = w.toNat / 256 ^ i % 256 := by
    rw [← octet32_toNat v hi, ← octet32_toNat w hi, ho]
  have h₀ := hnat 0 (by omega) h₀
  have h₁ := hnat 1 (by omega) h₁
  have h₂ := hnat 2 (by omega) h₂
  have h₃ := hnat 3 (by omega) h₃
  have hv := v.toNat_lt
  have hw := w.toNat_lt
  apply UInt32.toNat_inj.mp
  omega

/-- **Different states go to different codes.** -/
theorem secgetmic_level {d e : MicData} (h : d.Level e) (heq : secgetmic d = secgetmic e) :
    d.halves = e.halves := by
  obtain ⟨hlevel, hapart⟩ := secmicappend_level h [0x5a, 0, 0, 0, 0]
  simp only [secgetmic] at heq
  obtain ⟨hl, hr⟩ := List.append_inj heq (by simp only [length_octets32])
  exact hapart
    (secmicfill_level hlevel 4 (Prod.ext (octets32_injective hl) (octets32_injective hr)))

/-- A state that collects a word. -/
structure MicData.Ok (d : MicData) : Prop where
  lt : d.nBytesInM < 4
  empty : d.nBytesInM = 0 → d.M = 0

theorem secmicappendbyte_ok {d : MicData} (h : d.Ok) (b : UInt8) :
    (secmicappendbyte d b).Ok ∧
      (secmicappendbyte d b).nBytesInM = (d.nBytesInM + 1) % 4 := by
  have hlt := h.lt
  simp only [secmicappendbyte]
  split_ifs with hfull
  · have hn : d.nBytesInM = 3 := by omega
    exact ⟨⟨Nat.zero_lt_succ _, fun _ => rfl⟩, by rw [hn]⟩
  · exact ⟨⟨by dsimp only; omega, fun hz => absurd hz (Nat.succ_ne_zero _)⟩, by dsimp only; omega⟩

theorem secmicappend_ok {d : MicData} (h : d.Ok) (p : Bytes) :
    (secmicappend d p).Ok ∧ (secmicappend d p).nBytesInM = (d.nBytesInM + p.length) % 4 := by
  induction p generalizing d with
  | nil =>
    have hlt := h.lt
    exact ⟨h, (Nat.mod_eq_of_lt hlt).symm⟩
  | cons b p ih =>
    obtain ⟨hok, hn⟩ := secmicappendbyte_ok h b
    obtain ⟨hok', hn'⟩ := ih hok
    refine ⟨hok', hn'.trans ?_⟩
    rw [hn, List.length_cons]
    omega

theorem secmicappend_octet {d : MicData} (h : d.Ok) (hn : d.nBytesInM = 0) (p : UInt8) :
    (secmicappend d [p, 0, 0, 0]).halves = micBlock (d.L ^^^ p.toUInt32, d.R) := by
  simp [secmicappend, secmicappendbyte, hn, h.empty hn, MicData.halves]

/-- **The priority behind the addresses is fixed by the code.** -/
theorem michael_inj_priority {key pre data : Bytes} (hpre : pre.length = 12) {p q : UInt8}
    (h : michael key (pre ++ [p, 0, 0, 0] ++ data) = michael key (pre ++ [q, 0, 0, 0] ++ data)) :
    p = q := by
  simp only [michael, secmicappend_append] at h
  obtain ⟨hok, hn⟩ := secmicappend_ok (d := secmicsetkey key) ⟨Nat.zero_lt_succ _, fun _ => rfl⟩ pre
  generalize secmicappend (secmicsetkey key) pre = d at h hok hn
  replace hn : d.nBytesInM = 0 := by simp [hn, hpre, secmicsetkey, secmicclear]
  have hlevel : (secmicappend d [p, 0, 0, 0]).Level (secmicappend d [q, 0, 0, 0]) := by
    obtain ⟨hp, hpn⟩ := secmicappend_ok hok [p, 0, 0, 0]
    obtain ⟨hq, hqn⟩ := secmicappend_ok hok [q, 0, 0, 0]
    replace hpn : (secmicappend d [p, 0, 0, 0]).nBytesInM = 0 := by simp [hpn, hn]
    replace hqn : (secmicappend d [q, 0, 0, 0]).nBytesInM = 0 := by simp [hqn, hn]
    exact ⟨(hp.empty hpn).trans (hq.empty hqn).symm, hpn.trans hqn.symm⟩
  obtain ⟨hdata, hapart⟩ := secmicappend_level hlevel data
  have hhalves := hapart (secgetmic_level hdata h)
  rw [secmicappend_octet hok hn, secmicappend_octet hok hn] at hhalves
  have hword : p.toUInt32 = q.toUInt32 := by
    simpa using congrArg Prod.fst (micBlock_injective hhalves)
  exact UInt8.toNat_inj.mp (by simpa using congrArg UInt32.toNat hword)

end Rtl88x2eu
