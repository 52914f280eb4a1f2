import AptUsbtrx.Verification.Configuration.Link
import Mathlib.Logic.Function.Basic

/-! # A unit made of registers

It keeps the payloads that it is given, and it does what the driver relies on. -/

namespace AptUsbtrx

open Memory

namespace Ep1Cf02a

instance (setting : Setting) (payload : List UInt8) : Decidable (setting.Fits payload) :=
  inferInstanceAs (Decidable (_ = _))

/-- The length of the payload of the response. -/
def Readable.size (r : Readable) : ℕ := msgLengthToPayload r.getCmd.command.respDataSize

/-- What the unit reports, and a payload that it refuses. -/
structure RegisterUnit where
  register : (r : Readable) → { payload : List UInt8 // payload.length = r.size }
  refused : List UInt8

theorem Readable.size_value {setting : Setting} {payload : List UInt8}
    (h : setting.Fits payload) : payload.length = (Readable.value setting).size := by
  rw [h]
  cases setting <;> rfl

namespace RegisterUnit

variable {unit : RegisterUnit} {setting : Setting} {payload : List UInt8}

def store (unit : RegisterUnit) (setting : Setting) (payload : List UInt8)
    (h : setting.Fits payload) : RegisterUnit :=
  ⟨Function.update unit.register (.value setting) ⟨payload, Readable.size_value h⟩, unit.refused⟩

def settings : List Setting :=
  [.silentMode, .fdMode, .isoMode, .bitTiming, .dataBitTiming, .txRxControl, .rtcTime,
    .storeDataRxControl, .storeEnable, .storeMaxDuration]

def readables : List Readable :=
  [.canClock, .resetTime, .storeDataState] ++ settings.map .value

def serve (unit : RegisterUnit) (request : List UInt8) : RegisterUnit × List UInt8 :=
  match settings.find? fun setting => HasId setting.command.reqCmdId request with
  | some setting =>
      if h : setting.Fits (framePayload request) ∧ framePayload request ≠ unit.refused then
        (unit.store setting (framePayload request) h.1, setting.answer cmdACK)
      else (unit, setting.answer cmdNACK)
  | none =>
      match readables.find? fun r => HasId r.getCmd.command.reqCmdId request with
      | some r => (unit, frame r.getCmd.command.respCmdIdAck (unit.register r).1)
      | none => (unit, [])

/-- The registers do not change by themselves. -/
def firmware : Firmware RegisterUnit := ⟨serve, fun unit _ => unit⟩

end RegisterUnit

end Ep1Cf02a

end AptUsbtrx
