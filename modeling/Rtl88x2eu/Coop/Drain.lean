import Rtl88x2eu.Recv.RecvFunc

/-!
# The drain of helper frames

One iteration of `_coop_rx_drain_tasklet`, with the adapter of the primary as its state: the
duplicate and window checks, the kernel's AEAD transforms, and the tail behind them that does not
go through `recv_func_posthandle`.

## Main definitions

* `Tfm`, `GroupCrypto`, `KernelCrypto`: the AEAD transforms of a group and the kernel behind them
* `coopRxKernelDecrypt`, `kernelLeft`: decryption by the kernel, and what is left where it fails
* `coopPostDecrypt`, `drainProcess`, `drainFrame`
-/

namespace Rtl88x2eu.Coop

/-! ## Kernel decryption -/

inductive Tfm
  | ccm | ccm256 | gcm
deriving DecidableEq, Repr

/-- The transforms of a group, `NULL` or with the key that is set on them, and the key that was
set last. -/
structure GroupCrypto where
  tfm : Tfm → Option (Option Bytes) := fun _ => some none
  /-- `cached_key` up to `cached_key_len`. -/
  cachedKey : Bytes := []

/-- The kernel's side of the transforms. -/
structure KernelCrypto where
  /-- `crypto_aead_setkey` takes a key. -/
  cryptoAeadSetkey : Tfm → Bytes → Bool := fun _ _ => true
  /-- `aead_request_alloc` finds memory. -/
  aeadRequestAlloc : Adapter → RecvFrame → Bool := fun _ _ => true
  /-- `crypto_aead_decrypt`: key, IV, associated data, ciphertext with its tag. -/
  cryptoAeadDecrypt : Tfm → Bytes → Bytes → Bytes → Bytes → Option Bytes
  /-- What a `crypto_aead_decrypt` that fails leaves in the place of ciphertext and tag. -/
  spoiled : Tfm → Bytes → Bytes → Bytes → Bytes → Bytes := fun _ _ _ _ data => data

/-- The transform of a cipher. -/
def tfmOf : SecurityType → Option Tfm
  | .aes => some .ccm
  | .ccmp256 => some .ccm256
  | .gcmp | .gcmp256 => some .gcm
  | _ => none

/-- The key of `coop_rx_kernel_decrypt`: that of the station the frame points to, or the group key
if it is installed under the key index of the frame. -/
def coopKey (a : Adapter) (s : StaId) (p : RxPktAttrib) : Option Bytes :=
  if p.ra.isMcast then
    if !a.securitypriv.binstallGrpkey then none
    else if a.securitypriv.dot118021XGrpKeyid ≠ p.keyIndex then none
    else some ((a.securitypriv.dot118021XGrpKey p.keyIndex).take (aeadKeyLen p.encrypt))
  else some ((a.sta s).dot118021xUncstKey.take (aeadKeyLen p.encrypt))

def GroupCrypto.setKey (k : KernelCrypto) (g : GroupCrypto) (t : Tfm) (key : Bytes) :
    Bool × GroupCrypto :=
  if key = g.cachedKey then (true, g)
  else if k.cryptoAeadSetkey t key then
    (true, { tfm := Function.update g.tfm t (some (some key)), cachedKey := key })
  else (false, { g with tfm := Function.update g.tfm t (some none) })

def coopAadIv (a : Adapter) (f : RecvFrame) (t : Tfm) : Bytes × Bytes :=
  let iv := f.rxData.drop f.attrib.hdrlen
  let spp := a.amsduMode = .spp
  match t with
  | .gcm =>
    let (aad, nonce) := gcmpAadNonce spp f.rxData iv
    (aad, nonce ++ [0, 0, 0, 0])
  | _ =>
    let (aad, nonce) := ccmpAadNonce spp f.rxData iv
    (aad, 1 :: nonce ++ [0, 0])

def coopAeadDecrypt (k : KernelCrypto) (a : Adapter) (f : RecvFrame) (t : Tfm) (key : Bytes) :
    Option RecvFrame :=
  let micLen := aeadMicLen f.attrib.encrypt
  if f.len ≤ f.attrib.hdrlen + 8 + micLen then none
  else if !k.aeadRequestAlloc a f then none
  else
    let (aad, iv) := coopAadIv a f t
    let start := f.attrib.hdrlen + 8
    (k.cryptoAeadDecrypt t key iv aad (f.rxData.drop start)).map fun plain =>
      ({ f with rxData := f.rxData.overwrite start plain } : RecvFrame).setBdecrypted

def coopRxKernelDecrypt (k : KernelCrypto) (g : GroupCrypto) (a : Adapter) (f : RecvFrame) :
    Option RecvFrame × GroupCrypto :=
  match f.psta, tfmOf f.attrib.encrypt with
  | some s, some t =>
    if (g.tfm t).isNone then (none, g)
    else
      match coopKey a s f.attrib with
      | none => (none, g)
      | some key =>
        let r := g.setKey k t key
        if !r.1 then (none, r.2)
        -- the transform may still have another key than the one set last
        else ((r.2.tfm t).join.bind (coopAeadDecrypt k a f t), r.2)
  | _, _ => (none, g)

/-- The transform that `coop_rx_kernel_decrypt` decrypts with, and the key that is set on it. -/
def aeadTransform (k : KernelCrypto) (g : GroupCrypto) (a : Adapter) (f : RecvFrame) :
    Option (Tfm × Bytes) :=
  match f.psta, tfmOf f.attrib.encrypt with
  | some s, some t =>
    if (g.tfm t).isNone then none
    else
      (coopKey a s f.attrib).bind fun key =>
        let r := g.setKey k t key
        if r.1 then (r.2.tfm t).join.map (t, ·) else none
  | _, _ => none

/-- A frame that `coop_rx_kernel_decrypt` could not decrypt. The decryption is in place, so one that
fails has written over the ciphertext. -/
def kernelLeft (k : KernelCrypto) (g : GroupCrypto) (a : Adapter) (f : RecvFrame) : RecvFrame :=
  match aeadTransform k g a f with
  | none => f
  | some (t, key) =>
    if f.len ≤ f.attrib.hdrlen + 8 + aeadMicLen f.attrib.encrypt ∨ !k.aeadRequestAlloc a f then f
    else
      let (aad, iv) := coopAadIv a f t
      let start := f.attrib.hdrlen + 8
      let data := f.rxData.drop start
      { f with
        rxData := f.rxData.overwrite start ((k.spoiled t key iv aad data).take data.length) }

/-- The duplicate check of the drain: the sequence control value is claimed unless the cache holds
it. -/
def drainDecache (a : Adapter) (f : RecvFrame) : Bool × Adapter :=
  match f.psta with
  | none => (true, a)
  | some s =>
    let tid := Tid.clamp f.attrib.priority
    if f.attrib.seqCtrl = (a.sta s).prxseq f.attrib tid then (false, a)
    else (true, a.setSta s ((a.sta s).setPrxseq f.attrib tid))

def drainLate (a : Adapter) (f : RecvFrame) : Bool :=
  match f.psta with
  | none => false
  | some s =>
    let preorder := a.reorder (s, Tid.clamp f.attrib.priority)
    f.attrib.qos && f.attrib.priority ≤ 15 && preorder.enable && preorder.indicateSeq ≠ 0xFFFF &&
      snLess f.attrib.seqNum preorder.indicateSeq

variable (env : Env) (k : KernelCrypto)

/-- The frame behind the label `coop_post_decrypt`, with its reorder window. -/
def coopWindow (f : RecvFrame) : RecvFrame :=
  match f.psta with
  | some s => { f with preorderCtrl := some (s, Tid.clamp f.attrib.priority) }
  | none => f

/-- The code behind the label `coop_post_decrypt`: what the two functions return is only
counted. -/
def coopPostDecrypt (a : Adapter) (f : RecvFrame) : Ret × Adapter :=
  if f.attrib.qos then recvIndicatepktReorder env a (coopWindow f) else recvProcessMpdu env a f

/-- `key_index` of an AEAD frame, which the drain sets before it decrypts. -/
def setKeyIndex (f : RecvFrame) : RecvFrame :=
  { f with attrib := { f.attrib with keyIndex := ivKeyIndex (f.rxData.drop f.attrib.hdrlen) } }

def consumePn (a : Adapter) (f : RecvFrame) : Adapter :=
  match f.psta with
  | none => a
  | some s =>
    let tid := Tid.clamp f.attrib.priority
    let iv := (f.rxData.drop f.attrib.hdrlen).take 8
    a.setSta s { a.sta s with iv := Function.update (a.sta s).iv tid iv }

/-- A frame of an AEAD cipher: the kernel decrypts it, or else `recv_func_posthandle` gets what the
kernel left of it. -/
def drainAead (g : GroupCrypto) (a : Adapter) (f : RecvFrame) : Ret × GroupCrypto × Adapter :=
  match coopRxKernelDecrypt k g a f with
  | (some f', g) =>
    let r := coopPostDecrypt env (consumePn a f) f'
    (r.1, g, r.2)
  | (none, g₁) =>
    let r := recvFuncPosthandle env a (kernelLeft k g a f)
    (r.1, g₁, r.2)

/-- A frame that is no duplicate. -/
def drainProcess (g : GroupCrypto) (a : Adapter) (f : RecvFrame) : Ret × GroupCrypto × Adapter :=
  if f.attrib.encrypt ≠ .noPrivacy ∧ !f.attrib.bdecrypted then
    if f.attrib.encrypt.isAead then drainAead env k g a (setKeyIndex f)
    else
      let r := recvFuncPosthandle env a f
      (r.1, g, r.2)
  else
    let r := coopPostDecrypt env a f
    (r.1, g, r.2)

/-- One iteration of the loop of `_coop_rx_drain_tasklet` on a dequeued frame. -/
def drainFrame (g : GroupCrypto) (a : Adapter) (f : RecvFrame) : GroupCrypto × Adapter :=
  match drainDecache a f with
  | (false, a) => (g, rtwFreeRecvframe a f.id)
  | (true, a) =>
    if drainLate a f then (g, rtwFreeRecvframe a f.id) else (drainProcess env k g a f).2

end Rtl88x2eu.Coop
