import Rtl88x2eu.Crypto.Arcfour

/-!
# Galois/counter mode

`aes-gcm.c` over a block cipher that is only known to be a function of the key and the block. A
block is a 128-bit value, its first octet the most significant one.

## Main definitions

* `inc32`, `gfMult`, `ghash`, `aesGctr`
* `aesGcmAe`, `aesGcmAd`: authenticated encryption and decryption

## Main results

* `aesGctr_aesGctr`: counter mode undoes itself
* `aesGcmAd_aesGcmAe`: what was encrypted is authentic, and is decrypted
-/

namespace Rtl88x2eu

/-- `AES_BLOCK_SIZE` octets. -/
abbrev Block := BitVec 128

namespace Block

def toBytes (v : Block) : Bytes :=
  (List.range 16).map fun i => UInt8.ofBitVec (v.extractLsb' (8 * (15 - i)) 8)

@[simp] theorem length_toBytes (v : Block) : v.toBytes.length = 16 := by simp [toBytes]

def ofBytes (p : Bytes) : Block :=
  (List.range 16).foldl (fun v i => v <<< 8 ||| (p.u8 i).toBitVec.setWidth 128) 0

end Block

variable (aes : Bytes → Block → Block)

def inc32 (v : Block) : Block :=
  BitVec.append (v.extractLsb' 32 96) (v.extractLsb' 0 32 + 1)

/-- The loop of `aes_gctr` over whole blocks and the last, partial one. -/
def gctrLoop (key : Bytes) : ℕ → Block → Bytes → Bytes
  | 0, _, _ => []
  | n + 1, cb, x =>
    Keystream.pad (· ^^^ ·) (x.take 16) (aes key cb).toBytes ++
      gctrLoop key n (inc32 cb) (x.drop 16)

def blockCount (x : Bytes) : ℕ := (x.length + 15) / 16

def aesGctr (key : Bytes) (icb : Block) (x : Bytes) : Bytes :=
  gctrLoop aes key (blockCount x) icb x

/-! ## The hash -/

/-- One bit of `gf_mult`: the product so far and the multiple of `y`. -/
def gfMultBit (x : Block) (s : Block × Block) (i : ℕ) : Block × Block :=
  let (z, v) := s
  (if x.getMsbD i then z ^^^ v else z,
    if v.getLsbD 0 then v >>> 1 ^^^ (0xe1#128 <<< 120) else v >>> 1)

def gfMult (x y : Block) : Block := ((List.range 128).foldl (gfMultBit x) (0, y)).1

/-- The loop of `ghash`, with the last block filled up by zeroes. -/
def ghashLoop (h : Block) : ℕ → Bytes → Block → Block
  | 0, _, y => y
  | n + 1, x, y => ghashLoop h n (x.drop 16) (gfMult (y ^^^ Block.ofBytes x) h)

def ghash (h : Block) (x : Bytes) (y : Block) : Block := ghashLoop h (blockCount x) x y

/-- Two lengths in bits, `WPA_PUT_BE64` each. -/
def lenBuf (n m : ℕ) : Bytes :=
  Block.toBytes (BitVec.append (BitVec.ofNat 64 (8 * n)) (BitVec.ofNat 64 (8 * m)))

def aesGcmPrepareJ0 (iv : Bytes) (h : Block) : Block :=
  if iv.length = 12 then Block.ofBytes (iv ++ [0, 0, 0, 1])
  else ghash h (lenBuf 0 iv.length) (ghash h iv 0)

def aesGcmGhash (h : Block) (aad crypt : Bytes) : Block :=
  ghash h (lenBuf aad.length crypt.length) (ghash h crypt (ghash h aad 0))

def gcmTag (key iv aad crypt : Bytes) : Bytes :=
  let h := aes key 0
  aesGctr aes key (aesGcmPrepareJ0 iv h) (aesGcmGhash h aad crypt).toBytes

/-- `aes_gcm_gctr`, from the counter behind that of the tag. -/
def aesGcmGctr (key iv p : Bytes) : Bytes :=
  aesGctr aes key (inc32 (aesGcmPrepareJ0 iv (aes key 0))) p

def aesGcmAe (key iv plain aad : Bytes) : Bytes × Bytes :=
  let crypt := aesGcmGctr aes key iv plain
  (crypt, gcmTag aes key iv aad crypt)

def aesGcmAd (key iv crypt aad tag : Bytes) : Option Bytes :=
  if tag.take 16 = gcmTag aes key iv aad crypt then some (aesGcmGctr aes key iv crypt) else none

variable {aes}

theorem length_take_block (x : Bytes) (v : Block) : (x.take 16).length ≤ v.toBytes.length := by
  rw [Block.length_toBytes]
  exact List.length_take_le 16 x

theorem length_gctrLoop (key : Bytes) (n : ℕ) (cb : Block) (x : Bytes) (h : x.length ≤ 16 * n) :
    (gctrLoop aes key n cb x).length = x.length := by
  induction n generalizing cb x with
  | zero => simp_all [gctrLoop]
  | succ n ih =>
    rw [gctrLoop, List.length_append, Keystream.length_pad (length_take_block _ _),
      ih _ _ (by simp; omega)]
    simp
    omega

@[simp] theorem length_aesGctr (key : Bytes) (icb : Block) (x : Bytes) :
    (aesGctr aes key icb x).length = x.length :=
  length_gctrLoop key _ icb x (by rw [blockCount]; omega)

theorem gctrLoop_gctrLoop (key : Bytes) (n : ℕ) (cb : Block) (x : Bytes)
    (h : x.length ≤ 16 * n) : gctrLoop aes key n cb (gctrLoop aes key n cb x) = x := by
  induction n generalizing cb x with
  | zero =>
    obtain rfl : x = [] := List.length_eq_zero_iff.mp (by omega)
    rfl
  | succ n ih =>
    have hpad : (Keystream.pad (· ^^^ ·) (x.take 16) (aes key cb).toBytes).length =
        (x.take 16).length := Keystream.length_pad (length_take_block _ _)
    have hfull := hpad.trans_le (List.length_take_le 16 x)
    have hrest : (gctrLoop aes key n (inc32 cb) (x.drop 16)).length = (x.drop 16).length :=
      length_gctrLoop key n _ _ (by simp; omega)
    simp only [gctrLoop]
    rcases Nat.lt_or_ge x.length 16 with hlt | hle
    · have hdrop : x.drop 16 = [] := List.drop_of_length_le hlt.le
      rw [hdrop, List.length_nil, List.length_eq_zero_iff] at hrest
      rw [hdrop, hrest, List.append_nil, List.take_of_length_le hfull,
        List.drop_of_length_le hfull, hrest, List.append_nil,
        Keystream.pad_pad xor_involutive (length_take_block _ _), List.take_of_length_le hlt.le]
    · have htake : (x.take 16).length = 16 := by simp; omega
      rw [List.take_left' (hpad.trans htake), List.drop_left' (hpad.trans htake),
        Keystream.pad_pad xor_involutive (length_take_block _ _), ih _ _ (by simp; omega),
        List.take_append_drop]

/-- **Counter mode undoes itself.** -/
theorem aesGctr_aesGctr (key : Bytes) (icb : Block) (x : Bytes) :
    aesGctr aes key icb (aesGctr aes key icb x) = x := by
  have hcount : blockCount (aesGctr aes key icb x) = blockCount x := by
    rw [blockCount, blockCount, length_aesGctr]
  rw [aesGctr, hcount]
  exact gctrLoop_gctrLoop key _ icb x (by rw [blockCount]; omega)

@[simp] theorem length_gcmTag (key iv aad crypt : Bytes) :
    (gcmTag aes key iv aad crypt).length = 16 := by
  simp [gcmTag]

@[simp] theorem length_aesGcmAe (key iv plain aad : Bytes) :
    (aesGcmAe aes key iv plain aad).1.length = plain.length :=
  length_aesGctr _ _ _

/-- **What was encrypted is authentic, and is decrypted.** -/
theorem aesGcmAd_aesGcmAe (key iv plain aad : Bytes) :
    aesGcmAd aes key iv (aesGcmAe aes key iv plain aad).1 aad (aesGcmAe aes key iv plain aad).2 =
      some plain := by
  rw [aesGcmAd, if_pos]
  · exact congrArg some (aesGctr_aesGctr _ _ _)
  · exact List.take_of_length_le (length_gcmTag _ _ _ _).le

end Rtl88x2eu
