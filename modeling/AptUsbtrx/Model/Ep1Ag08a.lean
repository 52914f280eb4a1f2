import AptUsbtrx.Model.Ep1Cf02a
import Mathlib.Data.Fintype.Pi

/-! # EP1-AG08A

The device data, the dispatcher, the messages and the commands of the analog unit. -/

namespace AptUsbtrx

open Memory Ep1Cf02a

namespace Ep1Ag08a

/-! ### `ep1_ag08a_cmd_def.h` -/

def cmdGetStatus : UInt8 := 0x15
def cmdSetAnalogInput : UInt8 := 0x1F
def cmdControlAnalogInput : UInt8 := 0x16
def cmdSetAnalogOutput : UInt8 := 0x1A
def cmdControlAnalogOutput : UInt8 := 0x17
def cmdNotifyAnalogInput : UInt8 := 0x3F
def cmdResponseGetStatus : UInt8 := 0x35

/-- `EP1_AG08A_CMD_LENGTH_RESPONSE_GET_STATUS` -/
def cmdLengthResponseGetStatus : ℕ := 18

/-- The commands of `ep1_ag08a_cmd.c`. -/
def commands : List Command :=
  [⟨cmdGetStatus, 4, cmdLengthResponseGetStatus, cmdResponseGetStatus, cmdUnknown⟩,
    ⟨cmdSetAnalogInput, 13, cmdLengthACK, cmdACK, cmdNACK⟩,
    ⟨cmdControlAnalogInput, 5, cmdLengthACK, cmdACK, cmdNACK⟩,
    ⟨cmdSetAnalogOutput, 7, cmdLengthACK, cmdACK, cmdNACK⟩,
    ⟨cmdControlAnalogOutput, 5, cmdLengthACK, cmdACK, cmdNACK⟩]

/-- An input channel, one of `EP1_AG08A_CH_NUM`. -/
abbrev Ch := Fin 8

/-- `ep1_ag08a_msg_set_analog_input_t`: the rate in mHz, the range of each channel in mV. -/
structure SetAnalogInput where
  sendRate : ℤ
  vmin : Ch → ℤ
  vmax : Ch → ℤ
  deriving DecidableEq

/-- `ep1_ag08a_msg_control_analog_input_t` -/
structure ControlAnalogInput where
  start : Ch → Bool
  deriving DecidableEq

/-- `ep1_ag08a_msg_set_analog_output_t`: voltage in mV, frequency in mHz. -/
structure SetAnalogOutput where
  waveformType : ℤ
  voltage : ℤ
  frequency : ℤ
  deriving DecidableEq

/-- `ep1_ag08a_msg_control_analog_output_t` -/
structure ControlAnalogOutput where
  start : Bool
  deriving DecidableEq

/-- `ep1_ag08a_msg_analog_input_t` -/
structure AnalogInput where
  cfg : SetAnalogInput
  ctrl : ControlAnalogInput
  deriving DecidableEq

/-- `ep1_ag08a_msg_analog_output_t` -/
structure AnalogOutput where
  cfg : SetAnalogOutput
  ctrl : ControlAnalogOutput
  deriving DecidableEq

/-- `ep1_ag08a_msg_resp_get_status_t` -/
structure RespGetStatus where
  input : AnalogInput
  output : AnalogOutput
  deriving DecidableEq

/-! ### `ep1_ag08a_msg.c` -/

/-- `enum EP1_AG08A_SEND_RATE_HZ` with the rates in mHz. -/
def sendRates : List (UInt8 × ℤ) :=
  [(0x01, 10000000), (0x02, 5000000), (0x03, 2500000), (0x04, 1250000), (0x05, 625000),
    (0x06, 312500), (0x07, 156250), (0x11, 10000), (0x12, 1000), (0x13, 100), (0x14, 10)]

/-- `ep1_ag08a_msg_convert_send_rate_to_value`; `none` is
`EP1_AG08A_SEND_RATE_HZ_Unknown`. -/
def convertSendRateToValue (sendRateMilliHz : ℤ) : Option UInt8 :=
  (sendRates.find? fun r => r.2 = sendRateMilliHz).map Prod.fst

/-- `ep1_ag08a_msg_convert_send_rate_from_value`; `none` is `-1`. -/
def convertSendRateFromValue (sendRate : UInt8) : Option ℤ := sendRates.lookup sendRate

/-- `enum EP1_AG08A_INPUT_VOLTAGE` with the ranges in mV. -/
def inputVoltages : List (UInt8 × ℤ × ℤ) :=
  [(0x00, -10000, 10000), (0x01, -5000, 5000), (0x02, -2500, 2500), (0x03, -1250, 1250),
    (0x04, -800, 800), (0x05, -400, 400), (0x06, -200, 200), (0x07, -100, 100), (0x09, 0, 5000)]

/-- `ep1_ag08a_msg_convert_input_voltage_to_value`; `none` is
`EP1_AG08A_INPUT_VOLTAGE_Unknown`. -/
def convertInputVoltageToValue (vmin vmax : ℤ) : Option UInt8 :=
  (inputVoltages.find? fun v => v.2 = (vmin, vmax)).map Prod.fst

/-- `ep1_ag08a_msg_convert_input_voltage_from_value`; `none` is `RESULT_Failure`. -/
def convertInputVoltageFromValue (voltage : UInt8) : Option (ℤ × ℤ) :=
  inputVoltages.lookup voltage

/-- `OUTPUT_CONVERT_SCALE_VOLTAGE` -/
def outputConvertScaleVoltage : ℤ := 20

/-- `OUTPUT_CONVERT_SCALE_FREQUENCY` -/
def outputConvertScaleFrequency : ℤ := 1000

/-- `ep1_ag08a_msg_parse_response_get_status`; its callers leave the structure alone when it
fails. -/
def parseResponseGetStatus (data : List UInt8) (dataSize : ℕ) : Option RespGetStatus :=
  if dataSize ≠ msgLengthToPayload cmdLengthResponseGetStatus then none
  else
    let range (ch : Ch) := convertInputVoltageFromValue (byteAt data (1 + ch))
    match convertSendRateFromValue (byteAt data 0) with
    | none => none
    | some sendRate =>
        if ∀ ch, (range ch).isSome then
          some
            { input :=
                { cfg :=
                    { sendRate := sendRate
                      vmin := fun ch => ((range ch).getD (0, 0)).1
                      vmax := fun ch => ((range ch).getD (0, 0)).2 }
                  ctrl := ⟨fun ch => (byteAt data 9).toNat.testBit ch⟩ }
              output :=
                { cfg :=
                    { waveformType := (byteAt data 10).toNat
                      voltage := (byteAt data 11).toNat * outputConvertScaleVoltage
                      frequency := (byteAt data 12).toNat * outputConvertScaleFrequency }
                  ctrl := ⟨(byteAt data 13).toNat.testBit 0⟩ } }
        else none

/-- `ep1_ag08a_msg_pack_set_analog_input`: the payload, `none` when the packing fails. -/
def packSetAnalogInput (param : SetAnalogInput) : Option (List UInt8) :=
  match convertSendRateToValue param.sendRate with
  | none => none
  | some sendRate =>
      ((List.finRange 8).mapM fun ch =>
        convertInputVoltageToValue (param.vmin ch) (param.vmax ch)).map (sendRate :: ·)

/-- `ep1_ag08a_msg_pack_control_analog_input` -/
def packControlAnalogInput (param : ControlAnalogInput) : List UInt8 :=
  [(List.finRange 8).foldl
    (fun data ch => if param.start ch then data ||| UInt8.ofNat (1 <<< (ch : ℕ)) else data) 0]

/-- What `ep1_ag08a_msg_pack_set_analog_output` makes of its parameters: a zero is replaced. -/
def SetAnalogOutput.workaround (param : SetAnalogOutput) : SetAnalogOutput :=
  { param with
    voltage := if param.voltage = 0 then outputConvertScaleVoltage else param.voltage
    frequency := if param.frequency = 0 then outputConvertScaleFrequency else param.frequency }

/-- `ep1_ag08a_msg_pack_set_analog_output`; the divisions truncate, the stores are ones of `u8`. -/
def packSetAnalogOutput (param : SetAnalogOutput) : List UInt8 :=
  let param := param.workaround
  [UInt8.ofInt param.waveformType, UInt8.ofInt (param.voltage.tdiv outputConvertScaleVoltage),
    UInt8.ofInt (param.frequency.tdiv outputConvertScaleFrequency)]

/-! ### The device data -/

/-- `enum EP1_AG08A_IF_TYPE` -/
inductive IfType where
  | none
  | file
  | iio
  deriving DecidableEq

/-- `EP1_AG08A_IIO_DATA_SIZE` -/
def iioDataSize : ℕ := 24

/-- `ep1_ag08a_iio_data_t`; `pushed` is what `iio_push_to_buffers_with_timestamp` was called
with. -/
structure IioData where
  hwTimestamp : Bool
  buffer : List UInt8
  pushed : List (List UInt8 × ℤ)
  deriving DecidableEq

/-- `ep1_ag08a_unique_data_t` -/
structure UniqueData where
  ifType : IfType
  iio : IioData
  deriving DecidableEq

/-- `EP1_AG08A_RXDATA_BUFFER_SIZE` -/
def rxdataBufferSize : ℕ := 64 * 1024

/-- `ep1_ag08a_init_data` and the private data of `ep1_ag08a_create_iiodev`. -/
def initData : UniqueData := ⟨.none, ⟨true, List.replicate iioDataSize 0, []⟩⟩

/-! ### `ep1_ag08a_core.c` -/

/-- The offset of `data` in `ep1_ag08a_payload_notify_analog_input_t`. -/
def payloadDataOffset : ℕ := 9

/-- `ep1_ag08a_iio_data_copy`: a negative size counts as too large in the comparison with a
`size_t`. -/
def iioDataCopy (msg : Msg) (priv : IioData) : IioData :=
  if msg.payloadSize.toNat < payloadDataOffset then priv
  else
    let dataSize := msg.payloadSize.toNat - payloadDataOffset
    if dataSize ≤ iioDataSize then
      { priv with buffer := overwrite priv.buffer 0 (slice msg.payload payloadDataOffset dataSize) }
    else priv

/-- `ep1_ag08a_dispatch_msg`; `timeNs` is `wrap_iio_get_time_ns(indio_dev)`. -/
def dispatchMsg (timeNs : ℤ) : Dispatch (Dev UniqueData) := fun dev data msg =>
  let uniqueData := dev.uniqueData
  if msg.id = cmdNotifyAnalogInput then
    if uniqueData.ifType = .file then
      ({ dev with rxData := (ringbufferWrite dev.rxData msg.payload msg.payloadSize.toNat).2 },
        .success)
    else if uniqueData.ifType = .iio then
      let priv := iioDataCopy msg uniqueData.iio
      let timeNs : ℤ :=
        if priv.hwTimestamp then le32 msg.payload 0 * 1000000000 + le32 msg.payload 4 * 1000
        else timeNs
      ({ dev with uniqueData := { uniqueData with
        iio := { priv with pushed := priv.pushed ++ [(priv.buffer, timeNs)] } } }, .success)
    else (dev, .success)
  else if msg.id = cmdResponseGetStatus then
    if dev.rxComplete.id = cmdGetStatus then
      ({ dev with rxComplete := dev.rxComplete.complete data msg }, .success)
    else (dev, .success)
  else (dev, .failure)

end Ep1Ag08a

end AptUsbtrx
