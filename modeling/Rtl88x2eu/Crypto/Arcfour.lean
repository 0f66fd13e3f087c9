import Mathlib.Tactic.Linarith
import Rtl88x2eu.Lib.Keystream
import Rtl88x2eu.Recv.Attrib

/-!
# RC4 and CRC-32

The stream cipher of WEP and TKIP, and the integrity check value that goes under it, as
`rtw_security.c` computes them.

## Main definitions

* `Arc4context`, `arcfourInit`, `arcfourByte`, `arcfourEncrypt`
* `getcrc32`
* `icvSeal`, `arcfour`
* `packed`, `packedHead`: the state as one number, and the first octet computed on it

## Main results

* `arcfourEncrypt_eq_iff`: the cipher undoes itself
* `arcfour_icvSeal_iff`: a text is opened if and only if it was sealed under the same stream
* `take_arcfour_icvSeal_iff`: what becomes of the text alone
* `toNat_keystream_one`: a stream's first octet, from a run on packed states
-/

namespace Rtl88x2eu

/-! ## RC4 -/

structure Arc4context where
  x : UInt8 := 0
  y : UInt8 := 0
  state : Bytes
deriving DecidableEq, Repr

/-- Two octets of the state change places: `t` at `i`, `u` at `j`. -/
def exchange (state : Bytes) (i j : ℕ) : Bytes :=
  (state.set j (state.u8 i)).set i (state.u8 j)

def initRound (key : Bytes) (r : Bytes × ℕ × UInt8) (counter : ℕ) : Bytes × ℕ × UInt8 :=
  let (state, keyindex, stateindex) := r
  let stateindex := stateindex + key.u8 keyindex + state.u8 counter
  let keyindex := if key.length ≤ keyindex + 1 then 0 else keyindex + 1
  (exchange state counter stateindex.toNat, keyindex, stateindex)

def arcfourInit (key : Bytes) : Arc4context :=
  { state := ((List.range 256).foldl (initRound key)
      ((List.range 256).map UInt8.ofNat, 0, 0)).1 }

def arcfourByte (c : Arc4context) : UInt8 × Arc4context :=
  let x := c.x + 1
  let sx := c.state.u8 x.toNat
  let y := sx + c.y
  let sy := c.state.u8 y.toNat
  let state := exchange c.state x.toNat y.toNat
  (state.u8 (sx + sy).toNat, ⟨x, y, state⟩)

/-- `arcfour_encrypt`, and the context behind it. -/
def arcfourEncrypt (c : Arc4context) (src : Bytes) : Bytes × Arc4context :=
  Keystream.crypt (· ^^^ ·) arcfourByte c src

theorem xor_involutive (b : UInt8) : Function.Involutive fun x => x ^^^ b := by
  intro x
  simp [UInt8.xor_assoc]

@[simp] theorem length_arcfourEncrypt (c : Arc4context) (src : Bytes) :
    (arcfourEncrypt c src).1.length = src.length :=
  Keystream.length_crypt c src

theorem arcfourEncrypt_append (c : Arc4context) (p q : Bytes) :
    (arcfourEncrypt c (p ++ q)).1 =
      (arcfourEncrypt c p).1 ++ (arcfourEncrypt (arcfourEncrypt c p).2 q).1 :=
  Keystream.crypt_append c p q

theorem take_arcfourEncrypt (c : Arc4context) (p : Bytes) (n : ℕ) :
    (arcfourEncrypt c p).1.take n = (arcfourEncrypt c (p.take n)).1 :=
  Keystream.take_crypt c p n

/-- **RC4 undoes itself.** -/
theorem arcfourEncrypt_eq_iff (c : Arc4context) (p q : Bytes) :
    (arcfourEncrypt c q).1 = p ↔ q = (arcfourEncrypt c p).1 :=
  Keystream.crypt_eq_iff xor_involutive c p q

/-! ## CRC-32 -/

def crc32Poly : UInt32 := 0x04c11db7

def crc32ReverseBit (data : UInt8) : UInt8 :=
  let left (n mask : UInt8) : UInt8 := (data <<< n) &&& mask
  let right (n mask : UInt8) : UInt8 := (data >>> n) &&& mask
  left 7 0x80 ||| left 5 0x40 ||| left 3 0x20 ||| left 1 0x10 |||
    right 1 0x08 ||| right 3 0x04 ||| right 5 0x02 ||| right 7 0x01

/-- An octet of a 32-bit value, the least significant one first. -/
def octet32 (v : UInt32) (i : ℕ) : UInt8 := (v >>> UInt32.ofNat (8 * i)).toUInt8

/-- The four octets of a 32-bit value in little-endian order. -/
def octets32 (v : UInt32) : Bytes := [octet32 v 0, octet32 v 1, octet32 v 2, octet32 v 3]

@[simp] theorem length_octets32 (v : UInt32) : (octets32 v).length = 4 := rfl

/-- A little-endian 32-bit load. -/
def le32 (p : Bytes) (i : ℕ) : UInt32 :=
  let shifted (k : ℕ) : UInt32 := (p.u8 (i + k)).toUInt32 <<< UInt32.ofNat (8 * k)
  shifted 0 ||| shifted 1 ||| shifted 2 ||| shifted 3

/-- An entry of `crc32_table`, as `crc32_init` makes it. -/
def crc32Table (i : UInt8) : UInt32 :=
  let shift (c : UInt32) : UInt32 :=
    let twice : UInt32 := c <<< 1
    if c &&& 0x80000000 = 0 then twice else twice ^^^ crc32Poly
  let c := Nat.repeat shift 8 ((crc32ReverseBit i).toUInt32 <<< 24)
  le32 [crc32ReverseBit (octet32 c 3), crc32ReverseBit (octet32 c 2),
    crc32ReverseBit (octet32 c 1), crc32ReverseBit (octet32 c 0)] 0

def getcrc32 (buf : Bytes) : UInt32 :=
  ~~~ buf.foldl (fun crc b => crc32Table (crc.toUInt8 ^^^ b) ^^^ (crc >>> 8)) 0xffffffff

/-- The check value as it is sent. -/
def icv (buf : Bytes) : Bytes := octets32 (getcrc32 buf)

@[simp] theorem length_icv (buf : Bytes) : (icv buf).length = 4 := rfl

/-! ## Sealing -/

/-- What `rtw_wep_encrypt` and `rtw_tkip_encrypt` do with the payload of a fragment: one stream goes
over the payload and then over its check value. -/
def icvSeal (key payload : Bytes) : Bytes :=
  let r := arcfourEncrypt (arcfourInit key) payload
  r.1 ++ (arcfourEncrypt r.2 (icv payload)).1

theorem icvSeal_eq (key payload : Bytes) :
    icvSeal key payload = (arcfourEncrypt (arcfourInit key) (payload ++ icv payload)).1 :=
  (arcfourEncrypt_append _ _ _).symm

@[simp] theorem length_icvSeal (key payload : Bytes) :
    (icvSeal key payload).length = payload.length + 4 := by
  simp [icvSeal]

theorem icvSeal_injective (key : Bytes) : Function.Injective (icvSeal key) := by
  intro p q h
  rw [icvSeal_eq, icvSeal_eq, arcfourEncrypt_eq_iff] at h
  have hq := (arcfourEncrypt_eq_iff (arcfourInit key) _ (q ++ icv q)).mp rfl
  exact (List.append_inj' (h.trans hq.symm) rfl).1

/-- What a receiver does with it. -/
def arcfour (key payload : Bytes) : Bytes := (arcfourEncrypt (arcfourInit key) payload).1

@[simp] theorem length_arcfour (key payload : Bytes) :
    (arcfour key payload).length = payload.length := by
  simp [arcfour]

/-- **A sealed text is opened** under another key exactly where the two streams agree on it. -/
theorem arcfour_icvSeal_iff (key key' payload payload' : Bytes) :
    arcfour key' (icvSeal key payload) = payload' ++ icv payload' ↔
      icvSeal key payload = icvSeal key' payload' := by
  rw [icvSeal_eq key', arcfour, arcfourEncrypt_eq_iff]

def keystream (key : Bytes) (n : ℕ) : Bytes := Keystream.stream arcfourByte (arcfourInit key) n

theorem xor_injective (x : UInt8) : Function.Injective fun b => x ^^^ b := by
  intro b b' h
  simpa using h

/-- **Of a text that was sealed under another key** the payload is right where the streams agree. -/
theorem take_arcfour_icvSeal_iff (key key' payload : Bytes) :
    (arcfour key' (icvSeal key payload)).take payload.length = payload ↔
      keystream key payload.length = keystream key' payload.length := by
  rw [arcfour, take_arcfourEncrypt, icvSeal, List.take_left' (length_arcfourEncrypt _ _),
    arcfourEncrypt_eq_iff]
  exact Keystream.crypt_eq_crypt_iff xor_injective _ _ _

/-! ## Packed states -/

/-- The octets of a state as the digits of one number, on which a run is cheap to evaluate. -/
def packed : Bytes → ℕ
  | [] => 0
  | b :: s => b.toNat + 256 * packed s

def digit (n i : ℕ) : ℕ := n / 256 ^ i % 256

theorem digit_packed (s : Bytes) (i : ℕ) : digit (packed s) i = (s.u8 i).toNat := by
  unfold digit
  induction s generalizing i with
  | nil => simp [packed, Bytes.u8]
  | cons b s ih =>
    have hb := b.toNat_lt
    cases i with
    | zero =>
      simp only [packed, pow_zero, Nat.div_one, Bytes.u8, List.getD_cons_zero]
      omega
    | succ i =>
      have hdiv : packed (b :: s) / 256 ^ (i + 1) = packed s / 256 ^ i := by
        rw [pow_succ', ← Nat.div_div_eq_div_mul, packed]
        congr 1
        omega
      rw [hdiv, ih]
      simp [Bytes.u8]

theorem packed_set (s : Bytes) {i : ℕ} (x : UInt8) (h : i < s.length) :
    packed (s.set i x) + (s.u8 i).toNat * 256 ^ i = packed s + x.toNat * 256 ^ i := by
  induction s generalizing i with
  | nil => simp at h
  | cons b s ih =>
    cases i with
    | zero =>
      simp only [List.set_cons_zero, packed, pow_zero, mul_one, Bytes.u8, List.getD_cons_zero]
      omega
    | succ i =>
      have hrec := ih (Nat.lt_of_succ_lt_succ h)
      have hu8 : Bytes.u8 (b :: s) (i + 1) = Bytes.u8 s i := by simp [Bytes.u8]
      simp only [List.set_cons_succ, packed, hu8, pow_succ]
      linarith

def packedExchange (n i j : ℕ) : ℕ :=
  n + digit n i * 256 ^ j + digit n j * 256 ^ i - (digit n i * 256 ^ i + digit n j * 256 ^ j)

theorem packed_exchange {s : Bytes} {i j : ℕ} (hi : i < s.length) (hj : j < s.length) :
    packed (exchange s i j) = packedExchange (packed s) i j := by
  have hset := packed_set s (s.u8 i) hj
  have hset' := packed_set (s.set j (s.u8 i)) (s.u8 j) (by simpa using hi)
  have hu8 : Bytes.u8 (s.set j (s.u8 i)) i = s.u8 i := by
    by_cases hij : j = i
    · subst hij
      simp [Bytes.u8, List.getD_eq_getElem?_getD, hj]
    · simp [Bytes.u8, List.getD_eq_getElem?_getD, List.getElem?_set_ne hij]
  rw [hu8] at hset'
  simp only [packedExchange, digit_packed, exchange]
  omega

def packedRound (key : Bytes) (r : ℕ × ℕ × ℕ) (counter : ℕ) : ℕ × ℕ × ℕ :=
  let stateindex := (r.2.2 + (key.u8 r.2.1).toNat + digit r.1 counter) % 256
  (packedExchange r.1 counter stateindex, if key.length ≤ r.2.1 + 1 then 0 else r.2.1 + 1,
    stateindex)

def packedByte (n : ℕ) : ℕ :=
  let sx := digit n 1
  digit (packedExchange n 1 sx) ((sx + digit n sx) % 256)

/-- `arcfour_init` and the first `arcfour_byte` on a packed state. -/
def packedHead (key : Bytes) : ℕ :=
  packedByte ((List.range 256).foldl (packedRound key)
    (packed ((List.range 256).map UInt8.ofNat), 0, 0)).1

theorem packedRound_eq (key : Bytes) {s : Bytes} (hs : s.length = 256) (k : ℕ) (i : UInt8)
    {counter : ℕ} (hcounter : counter < 256) :
    packedRound key (packed s, k, i.toNat) counter =
      (packed (initRound key (s, k, i) counter).1, (initRound key (s, k, i) counter).2.1,
        (initRound key (s, k, i) counter).2.2.toNat) := by
  have hindex : (i.toNat + (key.u8 k).toNat + digit (packed s) counter) % 256 =
      (i + key.u8 k + s.u8 counter).toNat := by
    rw [digit_packed, UInt8.toNat_add, UInt8.toNat_add]
    omega
  have hlt := (i + key.u8 k + s.u8 counter).toNat_lt
  simp only [packedRound, initRound, hindex]
  rw [packed_exchange (by omega) (by omega)]

theorem length_exchange (s : Bytes) (i j : ℕ) : (exchange s i j).length = s.length := by
  simp [exchange]

theorem packedRounds_eq (key : Bytes) {counters : List ℕ} (hc : ∀ c ∈ counters, c < 256)
    {s : Bytes} (hs : s.length = 256) (k : ℕ) (i : UInt8) :
    (counters.foldl (initRound key) (s, k, i)).1.length = 256 ∧
      (counters.foldl (packedRound key) (packed s, k, i.toNat)).1 =
        packed (counters.foldl (initRound key) (s, k, i)).1 := by
  induction counters generalizing s k i with
  | nil => exact ⟨hs, rfl⟩
  | cons c counters ih =>
    rw [List.foldl_cons, List.foldl_cons, packedRound_eq key hs k i (hc c List.mem_cons_self)]
    exact ih (fun d hd => hc d (.tail _ hd)) ((length_exchange _ _ _).trans hs) _ _

theorem packedByte_eq {s : Bytes} (hs : s.length = 256) :
    packedByte (packed s) = (arcfourByte { state := s }).1.toNat := by
  have hx : ((0 : UInt8) + 1).toNat = 1 := rfl
  have hlt := (s.u8 1).toNat_lt
  have hdigit : digit (packed s) 1 = (s.u8 1).toNat := digit_packed s 1
  have hsum : ((s.u8 1).toNat + (s.u8 (s.u8 1).toNat).toNat) % 256 =
      (s.u8 1 + s.u8 (s.u8 1).toNat).toNat := by
    rw [UInt8.toNat_add]
  simp only [packedByte, arcfourByte, hx, hdigit, UInt8.add_zero]
  rw [digit_packed, hsum, ← packed_exchange (by omega) (by omega), digit_packed]

/-- The first octet of a stream. -/
theorem toNat_keystream_one (key : Bytes) :
    (keystream key 1).map UInt8.toNat = [packedHead key] := by
  obtain ⟨hlen, hpacked⟩ := @packedRounds_eq key (List.range 256)
    (fun c hc => List.mem_range.mp hc) ((List.range 256).map UInt8.ofNat) (by simp) 0 0
  rw [UInt8.toNat_zero] at hpacked
  rw [packedHead, hpacked, packedByte_eq hlen, keystream, arcfourInit]
  rfl

end Rtl88x2eu
