import Rtl88x2eu.Crypto.Gcm

/-!
# Message authentication codes of BIP

`aes-omac1.c` and the GMAC half of `aes-gcm.c`, over a block cipher that is only known to be a
function of the key and the block, and the choice that `rtw_calculate_bip_mic` makes between them.

## Main definitions

* `omac1Aes`, `aesGmac`: the two codes
* `bipCode`

## Main results

* `length_bipCode`
* `bipCode_congr`
-/

namespace Rtl88x2eu

section

variable (aes : Bytes → Block → Block)

def gfMulx (pad : Block) : Block := pad <<< 1 ^^^ if pad.msb then 0x87 else 0

/-- The loop of `omac1_aes_vector` over whole blocks: the chain so far, and what is left. The last
block is not enciphered. -/
def omacLoop (key : Bytes) : ℕ → Block → Bytes → Block × Bytes
  | 0, cbc, x => (cbc, x)
  | n + 1, cbc, x =>
    let cbc := cbc ^^^ Block.ofBytes x
    omacLoop key n (if 16 < x.length then aes key cbc else cbc) (x.drop 16)

def omac1Aes (key data : Bytes) : Bytes :=
  let (cbc, left) := omacLoop aes key (data.length / 16) 0 data
  let pad := gfMulx (aes key 0)
  let (cbc, pad) := if left ≠ [] ∨ data = [] then
    (cbc ^^^ Block.ofBytes (left ++ [0x80]), gfMulx pad) else (cbc, pad)
  (aes key (pad ^^^ cbc)).toBytes

@[simp] theorem length_omac1Aes (key data : Bytes) : (omac1Aes aes key data).length = 16 :=
  Block.length_toBytes _

def aesGmac (key iv aad : Bytes) : Bytes := (aesGcmAe aes key iv [] aad).2

@[simp] theorem length_aesGmac (key iv aad : Bytes) : (aesGmac aes key iv aad).length = 16 :=
  length_gcmTag _ _ _ _

/-! ## The code of a frame -/

variable (init : Bool)

/-- `_bip_ccmp_protect`; `init` when `aes_encrypt_init` finds memory. -/
def bipCcmpProtect (keyLen : ℕ) (key data : Bytes) : Option Bytes :=
  if init then some (omac1Aes aes (key.take keyLen) data) else none

/-- The nonce of `_bip_gcmp_protect`: the transmitter, and the packet number from the MME. -/
def bipNonce (addr2 gcmpIpn : Bytes) : Bytes := addr2 ++ gcmpIpn.reverse

def bipGcmpProtect (keyLen : ℕ) (nonce key data : Bytes) : Option Bytes :=
  if init then some (aesGmac aes (key.take keyLen) nonce data) else none

/-- `rtw_calculate_bip_mic`, of the `len` octets of a frame. -/
def bipCode (gmcs : SecurityType) (w : Bytes) (len : ℕ) (key data : Bytes) : Option Bytes :=
  let nonce := bipNonce ((w.drop 10).take 6) ((w.drop (len - 22)).take 6)
  match gmcs with
  | .bipCmac128 => bipCcmpProtect aes init 16 key data
  | .bipCmac256 => bipCcmpProtect aes init 32 key data
  | .bipGmac128 => bipGcmpProtect aes init 16 nonce key data
  | .bipGmac256 => bipGcmpProtect aes init 32 nonce key data
  | _ => none

/-- A code has 16 octets. -/
theorem length_bipCode {gmcs : SecurityType} {w key data mic : Bytes} {len : ℕ}
    (h : bipCode aes init gmcs w len key data = some mic) : mic.length = 16 := by
  cases gmcs
  case bipCmac128 | bipCmac256 =>
    cases init with
    | false => cases h
    | true => rw [← Option.some.inj h, length_omac1Aes]
  case bipGmac128 | bipGmac256 =>
    cases init with
    | false => cases h
    | true => rw [← Option.some.inj h, length_aesGmac]
  all_goals cases h

variable {aes} {init}

theorem init_of_bipCode {gmcs : SecurityType} {w key data mic : Bytes} {len : ℕ}
    (h : bipCode aes init gmcs w len key data = some mic) : init = true := by
  cases init with
  | true => rfl
  | false => cases gmcs <;> cases h

/-- What a code takes from the frame itself. -/
theorem bipCode_congr {gmcs : SecurityType} {w w' key data : Bytes} {len : ℕ}
    (haddr : (w.drop 10).take 6 = (w'.drop 10).take 6)
    (hipn : gmcs ≠ .bipCmac128 → (w.drop (len - 22)).take 6 = (w'.drop (len - 22)).take 6) :
    bipCode aes init gmcs w len key data = bipCode aes init gmcs w' len key data := by
  cases gmcs
  case bipGmac128 | bipGmac256 =>
    simp only [bipCode, haddr, hipn (by decide)]
  all_goals rfl

end

def SecurityType.isBip : SecurityType → Bool
  | .bipCmac128 | .bipCmac256 | .bipGmac128 | .bipGmac256 => true
  | _ => false

theorem bipCode_isSome {aes : Bytes → Block → Block} {gmcs : SecurityType} {w key data : Bytes}
    {len : ℕ} (hgmcs : gmcs.isBip = true) :
    ∃ mic, bipCode aes true gmcs w len key data = some mic := by
  cases gmcs
  case bipCmac128 | bipCmac256 | bipGmac128 | bipGmac256 => exact ⟨_, rfl⟩
  all_goals cases hgmcs

end Rtl88x2eu
