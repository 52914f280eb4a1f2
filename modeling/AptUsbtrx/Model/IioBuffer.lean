import AptUsbtrx.Model.Ep1Ag08a
import AptUsbtrx.Model.Receive
import Mathlib.Data.Fintype.Card

/-! # The IIO buffer of EP1-AG08A

The analog unit between the messages that it receives and the samples that are pushed, with what the
IIO core does to both. -/

namespace AptUsbtrx

open Memory

namespace Ep1Ag08a

/-- The size that `ep1_ag08a_iio_data_copy` hands to `memcpy`, if it does: an `int` that is compared
with a `size_t`. -/
def iioCopySize (msg : Msg) : Option ℤ :=
  let dataSize : ℤ := msg.payloadSize.toNat - payloadDataOffset
  if dataSize % 2 ^ 64 ≤ iioDataSize then some dataSize else none

/-- The samples of a notification, behind its time stamp and its channels. -/
def channelData (msg : Msg) : List UInt8 :=
  slice msg.payload payloadDataOffset (msg.payloadSize.toNat - payloadDataOffset)

/-- A call of `iio_push_to_buffers_with_timestamp`: the message that it is made for, and the samples
that the IIO core takes from the front of the buffer. -/
structure Push where
  msg : Msg
  samples : List UInt8
  deriving DecidableEq

/-- The device with `active_scan_mask` and the pushes so far. -/
structure IioSystem where
  dev : Dev UniqueData
  scanMask : Finset Ch
  log : List Push

/-- `ep1_ag08a_buffer_preenable` and the other functions that set the interface, the attribute of the
time stamps, the IIO core that selects channels and leaves a time stamp in the buffer, a message, and
whatever else the driver does to the device. -/
inductive IioLabel where
  | setIfType (ifType : IfType)
  | setHwTimestamp (mode : Bool)
  | setScanMask (mask : Finset Ch)
  | storeTimestamp (offset : ℕ) (timestamp : List UInt8)
  | dispatch (timeNs : ℤ) (data : List UInt8) (msg : Msg)
  | other (dev : Dev UniqueData)

namespace IioSystem

def setUniqueData (s : IioSystem) (uniqueData : UniqueData) : IioSystem :=
  { s with dev := { s.dev with uniqueData := uniqueData } }

def setIio (s : IioSystem) (iio : IioData) : IioSystem :=
  s.setUniqueData { s.dev.uniqueData with iio := iio }

/-- The pushes of a message: of each channel in the mask two bytes. -/
def pushes (s : IioSystem) (dev : Dev UniqueData) (msg : Msg) : List Push :=
  (dev.uniqueData.iio.pushed.drop s.dev.uniqueData.iio.pushed.length).map fun p =>
    ⟨msg, p.1.take (2 * s.scanMask.card)⟩

def step (s : IioSystem) : IioLabel → Option IioSystem
  | .setIfType ifType => some (s.setUniqueData { s.dev.uniqueData with ifType := ifType })
  | .setHwTimestamp mode => some (s.setIio { s.dev.uniqueData.iio with hwTimestamp := mode })
  | .setScanMask mask => some { s with scanMask := mask }
  | .storeTimestamp offset timestamp =>
      let iio := s.dev.uniqueData.iio
      some (s.setIio { iio with buffer := overwrite iio.buffer offset timestamp })
  | .dispatch timeNs data msg =>
      if msg.payloadSize.toNat ≤ maxPayload then
        let dev := (AptUsbtrx.dispatchMsg (dispatchMsg timeNs) s.dev data msg).1
        some { s with dev := dev, log := s.log ++ s.pushes dev msg }
      else none
  | .other dev => if dev.uniqueData = s.dev.uniqueData then some { s with dev := dev } else none

/-- The unit after the probe. -/
def initial (rxDataAddr txDataAddr : ℕ) (time : Timespec64) : IioSystem :=
  ⟨.probed rxDataAddr rxdataBufferSize txDataAddr time initData, ∅, []⟩

end IioSystem

end Ep1Ag08a

end AptUsbtrx
