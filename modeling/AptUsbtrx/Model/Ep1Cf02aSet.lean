import AptUsbtrx.Model.BitTiming
import AptUsbtrx.Model.SetCommand
import AptUsbtrx.Shared.ByteOrder

/-! # The settings of EP1-CF02A

The packers of the set commands, the settings that can be read back, and the bit timing that the
driver keeps of a successful command. -/

namespace AptUsbtrx

open Memory ByteOrder

namespace Ep1Cf02a

/-! ### The packers of `ep1_cf02a_msg.c` -/

/-- `ep1_cf02a_msg_pack_set_silent_mode` -/
def packSetSilentMode (silent : Bool) : List UInt8 := [if silent then 0x00 else 0x01]

/-- `ep1_cf02a_msg_pack_set_fd_mode` -/
def packSetFdMode (fd : Bool) : List UInt8 := [if fd then 0x01 else 0x00]

/-- `ep1_cf02a_msg_pack_set_iso_mode` -/
def packSetIsoMode (nonIsoMode : Bool) : List UInt8 := [if nonIsoMode then 0x01 else 0x00]

/-- `ep1_cf02a_msg_pack_set_bit_timing`: of each `int` the bytes of `x` and `x >> 8`. -/
def packSetBitTiming (timing : BitTiming) : List UInt8 :=
  littleEndian 2 timing.propSeg ++ littleEndian 2 timing.phaseSeg1 ++
    littleEndian 2 timing.phaseSeg2 ++ littleEndian 2 timing.sjw ++ littleEndian 2 timing.brp

/-- `ep1_cf02a_msg_pack_set_data_bit_timing` -/
def packSetDataBitTiming (timing : BitTiming) : List UInt8 := packSetBitTiming timing

/-- `ep1_cf02a_msg_pack_set_tx_rx_control` -/
def packSetTxRxControl (start : Bool) : List UInt8 := [if start then 0x01 else 0x00]

/-- `ep1_cf02a_msg_pack_set_host_timestamp_reset_time` -/
def packSetHostTimestampResetTime (ts : Timespec64) : List UInt8 :=
  littleEndian 4 ts.tvSec ++ littleEndian 4 ts.tvNsec

/-- `ep1_cf02a_msg_pack_set_rtc_time` -/
def packSetRtcTime (rtcTime : RtcTime) : List UInt8 :=
  [rtcTime.weekday, rtcTime.month, rtcTime.date, rtcTime.year, rtcTime.hour, rtcTime.minute,
    rtcTime.second] ++ littleEndian 4 rtcTime.microsecond

/-- `ep1_cf02a_msg_pack_set_store_data_rx_control` -/
def packSetStoreDataRxControl (control : StoreDataRxControl) : List UInt8 :=
  slice control.id 0 cmdStoreDataIdMaxLength ++ [if control.start then 0x01 else 0x00] ++
    littleEndian 8 control.canFrameCountPerRequest

/-- `ep1_cf02a_msg_pack_set_store_enable` -/
def packSetStoreEnable (enable : Bool) : List UInt8 := [if enable then 0x01 else 0x00]

/-- `ep1_cf02a_msg_pack_set_store_max_duration` -/
def packSetStoreMaxDuration (maxDuration : ℕ) : List UInt8 := littleEndian 4 maxDuration

/-! ### Settings that can be read back -/

/-- The settings with a set command and a get command. -/
inductive Setting where
  | silentMode
  | fdMode
  | isoMode
  | bitTiming
  | dataBitTiming
  | txRxControl
  | rtcTime
  | storeDataRxControl
  | storeEnable
  | storeMaxDuration
  deriving DecidableEq

namespace Setting

/-- The function `ep1_cf02a_get_..` of the setting. -/
def getCmd : Setting → GetCmd
  | silentMode => .silentMode
  | fdMode => .fdMode
  | isoMode => .isoMode
  | bitTiming => .bitTiming
  | dataBitTiming => .dataBitTiming
  | txRxControl => .txRxControl
  | rtcTime => .rtcTime
  | storeDataRxControl => .storeDataRxControl
  | storeEnable => .storeEnable
  | storeMaxDuration => .storeMaxDuration

/-- The type of the message structure. -/
abbrev Value (setting : Setting) : Type := setting.getCmd.Output

/-- What the function `ep1_cf02a_set_..` passes to `ep1_cf02a_set_common`. -/
def command : Setting → Command
  | silentMode => setCommon 5 cmdSetSilentMode
  | fdMode => setCommon 5 cmdSetFDMode
  | isoMode => setCommon 5 cmdSetISOMode
  | bitTiming => setCommon 14 cmdSetBitTiming
  | dataBitTiming => setCommon 14 cmdSetDataBitTiming
  | txRxControl => setCommon 5 cmdSetTxRxControl
  | rtcTime => setCommon 15 cmdSetRTCTime
  | storeDataRxControl => setCommon 45 cmdSetStoreDataRxControl
  | storeEnable => setCommon 5 cmdSetStoreEnable
  | storeMaxDuration => setCommon 8 cmdSetStoreMaxDuration

/-- The packer that it passes. -/
def packReq : (setting : Setting) → setting.Value → List UInt8
  | silentMode => packSetSilentMode
  | fdMode => packSetFdMode
  | isoMode => packSetIsoMode
  | bitTiming => packSetBitTiming
  | dataBitTiming => packSetDataBitTiming
  | txRxControl => packSetTxRxControl
  | rtcTime => packSetRtcTime
  | storeDataRxControl => packSetStoreDataRxControl
  | storeEnable => packSetStoreEnable
  | storeMaxDuration => packSetStoreMaxDuration

/-- The decoder of the response to the get command. -/
def parseResp (setting : Setting) : List UInt8 → setting.Value := setting.getCmd.parseResp

end Setting

/-! ### The bit timing of the driver -/

/-- The setting with these limits. -/
def Limits.setting : Limits → Setting
  | nominal => .bitTiming
  | data => .dataBitTiming

/-- `unique_data->bittiming` or `unique_data->data_bittiming` -/
def UniqueData.timing (uniqueData : UniqueData) : Limits → BitTiming
  | .nominal => uniqueData.bittiming
  | .data => uniqueData.dataBittiming

def UniqueData.setTiming (uniqueData : UniqueData) (timing : BitTiming) : Limits → UniqueData
  | .nominal => { uniqueData with bittiming := timing }
  | .data => { uniqueData with dataBittiming := timing }

/-- `ep1_cf02a_set_bit_timing` and `ep1_cf02a_set_data_bit_timing` -/
def setBitTiming (limits : Limits) (env : SetEnv) (uniqueData : UniqueData) (timing : BitTiming) :
    SetOutcome × UniqueData :=
  if checkBitTiming limits.const timing ≠ 0 then (.notSent, uniqueData)
  else
    let outcome := limits.setting.command.runSet env (some (packSetBitTiming timing))
    if outcome.result ≠ .success then (outcome, uniqueData)
    else if outcome.success = some true then (outcome, uniqueData.setTiming timing limits)
    else (outcome, uniqueData)

end Ep1Cf02a

end AptUsbtrx
