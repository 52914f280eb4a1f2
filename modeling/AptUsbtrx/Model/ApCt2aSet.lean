import AptUsbtrx.Model.ApCt2a
import AptUsbtrx.Model.SetCommand
import AptUsbtrx.Shared.ByteOrder
import AptUsbtrx.Shared.Word32

/-! # The settings of the CAN units

Mode and trigger of AP-CT2A, the bit timing of EP1-CH02A, and the transmit tokens that go with a
mode. -/

namespace AptUsbtrx

open ByteOrder Word32

namespace ApCt2a

/-! ### The packers of `ap_ct2a_msg.c` -/

/-- `enum APT_USBTRX_BITRATE_MODE` with the rates in kbps, as far as they can be set. -/
def bitrateModes : List (ℤ × UInt8) :=
  [(33, 0x10), (50, 0x11), (83, 0x12), (100, 0x13), (125, 0x14), (250, 0x15), (500, 0x16),
    (1000, 0x17)]

/-- `apt_usbtrx_convert_baudrate_mode`; `none` is `APT_USBTRX_BITRATE_MODE_Unknown`. -/
def convertBaudrateMode (baudrate : ℤ) : Option UInt8 := bitrateModes.lookup baudrate

/-- The byte of a mode. -/
def modeByte (silent start : Bool) (baudrateMode : UInt8) : UInt8 :=
  (if silent = false then 1 else 0 : UInt8) <<< 6 ||| (if start then 1 else 0 : UInt8) <<< 5 |||
    baudrateMode

/-- `apt_usbtrx_msg_pack_set_mode`: the payload, `none` when the packing fails. -/
def packSetMode (param : SetMode) : Option (List UInt8) :=
  (convertBaudrateMode param.baudrate).map fun baudrateMode =>
    [modeByte param.silent param.start baudrateMode]

/-- The flags of a trigger on top of the upper bits of its id. -/
def triggerFlags (enable : Bool) (logic : TriggerLogic) (upper : UInt8) : UInt8 :=
  let upper := if enable then upper ||| 0x80 else upper
  if logic = .positive then upper ||| 0x40 else upper

/-- The two bytes of a trigger. -/
def packTrigger (trigger : Trigger) : List UInt8 :=
  [UInt8.ofNat trigger.id,
    triggerFlags trigger.enable trigger.logic (UInt8.ofNat (trigger.id >>> 8) &&& 0x07)]

/-- `apt_usbtrx_msg_pack_set_trigger` -/
def packSetTrigger (param : SetTrigger) : List UInt8 :=
  packTrigger param.input ++ packTrigger param.output ++ littleEndian 2 param.pulseWidth ++
    littleEndian 2 param.pulseInterval

/-! ### `apt_usbtrx_unique_can_set_mode` -/

/-- `APT_USBTRX_TX_TOKEN_CAN_SIZE` -/
def txTokenCanSize : ℤ := 16

/-- The product of `int`s in the calculation of `max_token`. -/
def transferBits (baudrate : ℤ) : ℤ := baudrate * 1024

/-- `max_token` -/
def maxToken (baudrate : ℤ) : ℤ :=
  (((wrap (transferBits baudrate)).tdiv 8).tdiv txTokenCanSize).tdiv 1000

/-- `apt_usbtrx_set_mode` -/
def setModeCommand : Command := ⟨cmdSetMode, 5, cmdLengthACK, cmdACK, cmdNACK⟩

/-- The device with its `tx_transfer_max_token`. -/
structure CanDev (υ : Type) where
  dev : Dev υ
  txTransferMaxToken : ℤ

/-- `apt_usbtrx_unique_can_set_mode`; `none` when the wait does not return after the rounds given. -/
def uniqueCanSetMode {υ : Type} (env : SyncEnv) (d : CanDev υ) (baudrate : ℤ) (silent : Bool) :
    Option (ℤ × CanDev υ) :=
  let mode : SetMode := ⟨silent, false, baudrate⟩
  let d := { d with txTransferMaxToken := if maxToken baudrate > 0 then maxToken baudrate else 1 }
  match setModeCommand.runSetSync env d.dev.rxComplete (packSetMode mode) with
  | none => none
  | some (outcome, rx) =>
      let d := { d with dev := { d.dev with rxComplete := rx } }
      if outcome.result ≠ .success then some (-eio, d)
      else if outcome.success ≠ some true then some (-eio, d)
      else some (0, d)

end ApCt2a

namespace Ep1Ch02a

/-- `ep1_ch02a_msg_set_bit_timing_t`, with the fields of `ep1_ch02a_ioctl_set_bit_timing_t`. -/
structure SetBitTiming where
  propSeg : ℤ
  phaseSeg1 : ℤ
  phaseSeg2 : ℤ
  sjw : ℤ
  brp : ℤ
  deriving DecidableEq

/-- `ep1_ch02a_msg_pack_set_bit_timing` -/
def packSetBitTiming (param : SetBitTiming) : List UInt8 :=
  [UInt8.ofInt param.propSeg, UInt8.ofInt param.phaseSeg1, UInt8.ofInt param.phaseSeg2,
    UInt8.ofInt param.sjw] ++ littleEndian 2 param.brp

/-- `ep1_ch02a_set_bit_timing` -/
def setBitTimingCommand : Command := ⟨cmdSetBitTiming, 10, cmdLengthACK, cmdACK, cmdNACK⟩

/-- `ep1_ch02a_ioctl_set_bit_timing` -/
def ioctlSetBitTiming (env : SetEnv) (param : SetBitTiming) : Result × SetOutcome :=
  let outcome := setBitTimingCommand.runSet env (some (packSetBitTiming param))
  if outcome.result ≠ .success then (.failure, outcome)
  else if outcome.success ≠ some true then (.failure, outcome)
  else (.success, outcome)

/-- `EP1_CH02A_IOCTL_SET_BIT_TIMING` of `ep1_ch02a_ioctl`; `copied` is whether `copy_from_user`
succeeds. -/
def ioctl (copied : Bool) (env : SetEnv) (param : SetBitTiming) : ℤ × SetOutcome :=
  if ¬ copied then (-efault, .notSent)
  else
    let (result, outcome) := ioctlSetBitTiming env param
    if result ≠ .success then (-eio, outcome) else (0, outcome)

end Ep1Ch02a

end AptUsbtrx
