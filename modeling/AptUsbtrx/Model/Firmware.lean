import AptUsbtrx.Model.FileInterface
import AptUsbtrx.Model.Slots

/-! # The firmware update

`apt_usbtrx_write_fw_data` under a caller that writes an image block by block, and the same block
again when a call fails. -/

namespace AptUsbtrx

open Memory

/-- `apt_usbtrx_unique_can_get_fw_size` -/
def ApCt2a.getFwSize : ℕ := 384 * 1024

/-- `ep1_cf02a_get_fw_size` -/
def Ep1Cf02a.getFwSize : ℕ := 256 * 1024

/-- `ep1_ag08a_get_fw_size` -/
def Ep1Ag08a.getFwSize : ℕ := 192 * 1024

/-- `unique_func.get_fw_size` -/
def FileDevice.getFwSize : FileDevice → ℕ
  | apCt2a | ep1Ch02a => ApCt2a.getFwSize
  | ep1Cf02a => Ep1Cf02a.getFwSize
  | ep1Ag08a => Ep1Ag08a.getFwSize

/-- What a call finds: the flags of the device, whether the copy from the caller succeeds, whether
`down_interruptible` gets a slot, what the structure on the stack holds, and whether the URB is
submitted. -/
structure FwCall (υ : Type) where
  dev : Dev υ
  copied : Bool
  down : Bool
  msg : Msg
  setup : Bool

/-- What a call returns, what it leaves in `fw_count` and the URB it submits. -/
structure FwWrite where
  ret : ℤ
  fwCount : ℕ
  urb : Option (List UInt8)
  deriving DecidableEq

section

variable {υ : Type}

/-- `apt_usbtrx_write_fw_data` -/
def writeFwData (fwSize fwCount : ℕ) (payload : List UInt8) (call : FwCall υ) : FwWrite :=
  match writeFwDataCheck call.dev payload.length call.copied with
  | some ret => ⟨ret, fwCount, none⟩
  | none =>
      if ¬ call.down then ⟨-eio, fwCount, none⟩ else
      let fwCount := (fwCount + 32) % 2 ^ 32
      let (result, data) := packFwData fwSize fwCount payload call.msg
      if result ≠ .success then ⟨-eio, fwCount, none⟩ else
      if ¬ call.setup then ⟨-eio, fwCount, none⟩ else
      ⟨32, fwCount, some data⟩

/-- The call gets to `apt_usbtrx_setup_tx_urb`. -/
def FwCall.setsUp (call : FwCall υ) (payload : List UInt8) : Bool :=
  writeFwDataCheck call.dev payload.length call.copied = none && call.down

/-- An image of the size of the device's firmware. -/
abbrev FwImage (fwSize : ℕ) := { bytes : List UInt8 // bytes.length = fwSize }

/-- The update. `written` are the blocks whose write has succeeded, `failed` counts the URBs that
could not be set up, `urbs` are the others. -/
structure FwSystem where
  fwCount : ℕ
  written : ℕ
  failed : ℕ
  urbs : List (List UInt8)

namespace FwSystem

/-- `apt_usbtrx_probe` -/
def start : FwSystem := ⟨0, 0, 0, []⟩

/-- The block that is to be written next. -/
def block {fwSize : ℕ} (image : FwImage fwSize) (k : ℕ) : List UInt8 := slice image.val (32 * k) 32

/-- One call of the caller; it stops behind the last block. -/
def step {fwSize : ℕ} (image : FwImage fwSize) (s : FwSystem) (call : FwCall υ) :
    Option FwSystem :=
  if 32 * s.written < fwSize then
    let payload := block image s.written
    let write := writeFwData fwSize s.fwCount payload call
    some {
      fwCount := write.fwCount
      written := if write.ret = 32 then s.written + 1 else s.written
      failed := if call.setsUp payload ∧ ¬ call.setup then s.failed + 1 else s.failed
      urbs := s.urbs ++ write.urb.toList }
  else none

end FwSystem

end

end AptUsbtrx
