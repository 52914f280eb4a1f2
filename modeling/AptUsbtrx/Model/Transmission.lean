import AptUsbtrx.Model.FileInterface
import AptUsbtrx.Model.NetStats
import AptUsbtrx.Model.Transmit

/-! # From the application to the bulk-out endpoint

`apt_usbtrx_write`, and the transmit path with the payloads of the writes that it has reported as
done, where a write and a clear of the ring are one step each. -/

namespace AptUsbtrx

/-! ### The functions of the devices that a write calls -/

/-- `sizeof(apt_usbtrx_payload_send_can_frame_t)` -/
def ApCt2a.payloadSendCanFrameSize : ℤ := 13

/-- `sizeof(ep1_cf02a_payload_send_can_frame_t)` -/
def Ep1Cf02a.payloadSendCanFrameSize : ℤ := 70

namespace FileDevice

/-- `get_write_payload_size`, with the address of the payload. -/
def getWritePayloadSize (device : FileDevice) (payload : ℕ) : ℤ :=
  if payload = 0 then -1
  else
    match device with
    | apCt2a | ep1Ch02a => ApCt2a.payloadSendCanFrameSize
    | ep1Cf02a => Ep1Cf02a.payloadSendCanFrameSize
    | ep1Ag08a => -1

/-- `get_write_cmd_id`, as stored in the `u8` of a message. -/
def getWriteCmdId : FileDevice → UInt8
  | apCt2a | ep1Ch02a => ApCt2a.cmdSendCANFrame
  | ep1Cf02a => Ep1Cf02a.cmdSendCANFrame
  | ep1Ag08a => UInt8.ofInt (-1)

end FileDevice

/-- A write of an application: the address and the size of its buffer, the bytes that
`copy_from_user` takes from it, `none` when it fails, and what the message structures on the stacks
of the two functions hold. -/
structure FileWrite where
  buffer : ℕ
  count : ℕ
  copied : Option (List UInt8)
  msg : Msg
  packedMsg : Msg

/-- The bytes that carry a payload to the device. -/
def frame (writeCmdId : UInt8) (payload : List UInt8) : List UInt8 :=
  [msgSob, UInt8.ofNat (payloadLengthToMsg payload.length), writeCmdId] ++ payload ++ [msgEob]

section

variable {υ : Type}

/-- `apt_usbtrx_write`: the value returned and the device after it. -/
def FileWrite.write (w : FileWrite) (device : FileDevice) (dev : Dev υ) : ℤ × Dev υ :=
  if w.count = 0 then (0, dev) else
  let payloadSize := UInt8.ofInt (device.getWritePayloadSize w.buffer)
  if payloadSize.toNat > msgLengthToPayload cmdMaxLength then (-eio, dev) else
  if payloadSize.toNat ≠ w.count then (-eio, dev) else
  match w.copied with
  | none => (-eio, dev)
  | some bytes =>
      let msg := w.msg.copyPayload bytes
      let (result, dev) := writeTxRb device.getWriteCmdId dev msg.payload payloadSize w.packedMsg
      if result < 0 then (result, dev) else (w.count, dev)

/-- The transmit path, and the payloads of the writes that have returned their count. -/
structure Transmission (υ : Type) where
  tx : TxSystem υ
  written : List (List UInt8)

/-- A write of an application, or a step of the transmit path that is no write. A whole write is one
step, and so is the clearing of the ring by the thread: there is one writer, and no clear overlaps a
write (the driver takes no lock that would keep them apart). -/
inductive TransmissionLabel where
  | write (w : FileWrite)
  | tx (label : TxLabel)

namespace Transmission

/-- The thread has just been started. -/
def start (dev : Dev υ) (transferMaxToken : ℤ) : Transmission υ :=
  ⟨TxSystem.start dev transferMaxToken, []⟩

def write (device : FileDevice) (s : Transmission υ) (w : FileWrite) : Transmission υ :=
  let (ret, dev) := w.write device s.tx.dev
  match w.copied with
  | some payload =>
      if ret > 0 then
        { tx := { s.tx with
            dev := dev
            accepted := s.tx.accepted ++ [frame device.getWriteCmdId payload] }
          written := s.written ++ [payload] }
      else { s with tx := { s.tx with dev := dev } }
  | none => { s with tx := { s.tx with dev := dev } }

def step (device : FileDevice) (bufferAddr : ℕ) (s : Transmission υ) :
    TransmissionLabel → Option (Transmission υ)
  | .write w =>
      if ∀ bytes ∈ w.copied, bytes.length = w.count then some (s.write device w) else none
  | .tx (.write ..) => none
  | .tx label =>
      (s.tx.step device.getWriteCmdId bufferAddr label).map fun tx => { s with tx := tx }

end Transmission

end

end AptUsbtrx
