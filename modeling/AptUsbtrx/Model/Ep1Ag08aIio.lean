import AptUsbtrx.Model.Ep1Ag08a
import Mathlib.Logic.Function.Basic

/-! # The IIO attributes of EP1-AG08A

The operations that set an attribute, message by message, and the unit that holds the settings. -/

namespace AptUsbtrx

open Memory

namespace Ep1Ag08a

/-! ### The unit -/

/-- What the unit holds, in the bytes of the messages. -/
structure AnalogUnit where
  sendRate : UInt8
  inputVoltage : Ch → UInt8
  inputStart : UInt8
  waveformType : UInt8
  outputVoltage : UInt8
  frequency : UInt8
  outputStart : UInt8
  deriving DecidableEq

namespace AnalogUnit

/-- The payload of `ResponseGetStatus`. -/
def status (unit : AnalogUnit) : List UInt8 :=
  [unit.sendRate, unit.inputVoltage 0, unit.inputVoltage 1, unit.inputVoltage 2,
    unit.inputVoltage 3, unit.inputVoltage 4, unit.inputVoltage 5, unit.inputVoltage 6,
    unit.inputVoltage 7, unit.inputStart, unit.waveformType, unit.outputVoltage, unit.frequency,
    unit.outputStart]

/-- `SetAnalogInput` with the payload given. -/
def setAnalogInput (unit : AnalogUnit) (payload : List UInt8) : AnalogUnit :=
  { unit with sendRate := byteAt payload 0, inputVoltage := fun ch => byteAt payload (1 + ch) }

/-- `SetAnalogOutput` with the payload given. -/
def setAnalogOutput (unit : AnalogUnit) (payload : List UInt8) : AnalogUnit :=
  { unit with
    waveformType := byteAt payload 0
    outputVoltage := byteAt payload 1
    frequency := byteAt payload 2 }

/-- `ControlAnalogOutput` with the payload given. -/
def controlAnalogOutput (unit : AnalogUnit) (payload : List UInt8) : AnalogUnit :=
  { unit with outputStart := byteAt payload 0 }

end AnalogUnit

/-- `ep1_ag08a_msg_pack_control_analog_output` -/
def packControlAnalogOutput (param : ControlAnalogOutput) : List UInt8 :=
  [if param.start then 0x01 else 0x00]

/-! ### `ep1_ag08a_iio.c` -/

/-- `ep1_ag08a_in_volt_range_modes_tbl`, by mode. -/
def inVoltRangeModesTbl : List (ℕ × UInt8) := [(0, 0x00), (1, 0x01)]

/-- `ep1_ag08a_in_volt_samp_freq_modes_tbl`, by mode. -/
def inVoltSampFreqModesTbl : List (ℕ × ℤ) :=
  [(0, 10000000), (1, 5000000), (2, 2500000), (3, 1250000), (4, 625000), (5, 312500),
    (6, 156250), (7, 10000), (8, 1000), (9, 100), (10, 10)]

/-- `ep1_ag08a_out_volt_waveform_type_modes_tbl`, by mode. -/
def outVoltWaveformTypeModesTbl : List (ℕ × ℤ) :=
  [(0, 0x00), (1, 0x01), (2, 0x02), (3, 0x03), (4, 0x10)]

/-- The masks of `ep1_ag08a_write_raw`; `other` is any that has no case. -/
inductive IioChanInfo where
  | raw
  | frequency
  | enable
  | other
  deriving DecidableEq

/-- What an operation hands to `ep1_ag08a_set_device_input`, `ep1_ag08a_set_device_output` or
`ep1_ag08a_control_device_output`. -/
inductive Setting where
  | input (cfg : SetAnalogInput)
  | output (cfg : SetAnalogOutput)
  | control (ctrl : ControlAnalogOutput)
  deriving DecidableEq

/-- A call of an operation with its arguments. -/
inductive Setter where
  | setInVoltRangeMode (ch : Ch) (mode : ℕ)
  | setInVoltSampFreqMode (mode : ℕ)
  | setOutVoltWaveformTypeMode (mode : ℕ)
  | writeRaw (val val2 : ℤ) (mask : IioChanInfo)

/-- `val * 1000 + val2 / 1000` in an `int`. -/
def toMilli (val val2 : ℤ) : ℤ := (val * 1000 + val2.tdiv 1000).bmod (2 ^ 32)

namespace Setter

/-- The look-up in front of the first message finds the mode. -/
def lookup : Setter → Bool
  | setInVoltRangeMode _ mode => (inVoltRangeModesTbl.lookup mode).isSome
  | setInVoltSampFreqMode mode => (inVoltSampFreqModesTbl.lookup mode).isSome
  | setOutVoltWaveformTypeMode mode => (outVoltWaveformTypeModesTbl.lookup mode).isSome
  | writeRaw .. => true

/-- What an operation makes of the status it got. -/
def modify (status : RespGetStatus) : Setter → Except ℤ Setting
  | setInVoltRangeMode ch mode =>
      match (inVoltRangeModesTbl.lookup mode).bind convertInputVoltageFromValue with
      | some (vmin, vmax) =>
          let cfg := status.input.cfg
          .ok (.input { cfg with
            vmin := Function.update cfg.vmin ch vmin
            vmax := Function.update cfg.vmax ch vmax })
      | none => .error (-eio)
  | setInVoltSampFreqMode mode =>
      match inVoltSampFreqModesTbl.lookup mode with
      | some sendRate => .ok (.input { status.input.cfg with sendRate := sendRate })
      | none => .error (-eio)
  | setOutVoltWaveformTypeMode mode =>
      match outVoltWaveformTypeModesTbl.lookup mode with
      | some waveformType => .ok (.output { status.output.cfg with waveformType := waveformType })
      | none => .error (-eio)
  | writeRaw val val2 .raw => .ok (.output { status.output.cfg with voltage := toMilli val val2 })
  | writeRaw val val2 .frequency =>
      .ok (.output { status.output.cfg with frequency := toMilli val val2 })
  | writeRaw val _ .enable => .ok (.control ⟨val ≠ 0⟩)
  | writeRaw _ _ .other => .error (-einval)

end Setter

/-- The unit after the message for a setting; `none` when the packing fails. -/
def Setting.send (unit : AnalogUnit) : Setting → Option AnalogUnit
  | .input cfg => (packSetAnalogInput cfg).map unit.setAnalogInput
  | .output cfg => some (unit.setAnalogOutput (packSetAnalogOutput cfg))
  | .control ctrl => some (unit.controlAnalogOutput (packControlAnalogOutput ctrl))

/-- `ep1_ag08a_is_device_input_start` or `ep1_ag08a_is_device_output_start`, whichever the setting
waits for. -/
def Setting.isDeviceStart (status : RespGetStatus) : Setting → Bool
  | .input _ => decide (∃ ch, status.input.ctrl.start ch = true)
  | .output _ => status.output.ctrl.start
  | .control _ => false

/-! ### Operations at the same time -/

/-- The message an operation has to exchange next. -/
inductive SetterPc where
  | getStatus
  | isDeviceStart (setting : Setting)
  | set (setting : Setting)
  | returned (ret : ℤ)
  deriving DecidableEq

/-- The unit answers as it should, it answers with a NACK, or no answer comes; without one the unit
may have carried the message out. -/
inductive Reply where
  | ack
  | nack
  | lost (executed : Bool)
  deriving DecidableEq

inductive SetterLabel (ι : Type) where
  | getStatus (i : ι) (reply : Reply)
  | isDeviceStart (i : ι) (reply : Reply)
  | set (i : ι) (reply : Reply)
  deriving DecidableEq

structure SetterSystem (ι : Type) where
  unit : AnalogUnit
  pcs : ι → SetterPc

/-- `ep1_ag08a_get_status` -/
def getStatus (unit : AnalogUnit) : Reply → Option RespGetStatus
  | .ack => parseResponseGetStatus unit.status unit.status.length
  | .nack | .lost _ => none

/-- The message behind the first one. -/
def Setting.next : Setting → SetterPc
  | .control ctrl => .set (.control ctrl)
  | setting => .isDeviceStart setting

namespace SetterSystem

variable {ι : Type} [DecidableEq ι]

/-- No operation has exchanged a message. -/
def start (unit : AnalogUnit) (ops : ι → Setter) : SetterSystem ι :=
  ⟨unit, fun i => if (ops i).lookup then .getStatus else .returned (-eio)⟩

def goto (s : SetterSystem ι) (i : ι) (pc : SetterPc) : SetterSystem ι :=
  { s with pcs := Function.update s.pcs i pc }

def step (ops : ι → Setter) (s : SetterSystem ι) : SetterLabel ι → Option (SetterSystem ι)
  | .getStatus i reply =>
      match s.pcs i with
      | .getStatus =>
          some (s.goto i (match getStatus s.unit reply with
            | some status =>
                match (ops i).modify status with
                | .ok setting => setting.next
                | .error ret => .returned ret
            | none => .returned (-eio)))
      | _ => none
  | .isDeviceStart i reply =>
      match s.pcs i with
      | .isDeviceStart setting =>
          some (s.goto i (match getStatus s.unit reply with
            | some status =>
                if setting.isDeviceStart status then .returned (-eio) else .set setting
            | none => .returned (-eio)))
      | _ => none
  | .set i reply =>
      match s.pcs i with
      | .set setting =>
          match setting.send s.unit, reply with
          | none, _ => some (s.goto i (.returned (-eio)))
          | some unit, .ack => some ({ s with unit := unit }.goto i (.returned 0))
          | some _, .nack => some (s.goto i (.returned (-eio)))
          | some unit, .lost executed =>
              some ((if executed then { s with unit := unit } else s).goto i (.returned (-eio)))
      | _ => none

end SetterSystem

end Ep1Ag08a

end AptUsbtrx
