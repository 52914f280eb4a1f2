import AptUsbtrx.Model.FileInterface
import AptUsbtrx.Model.Receive

/-! # From the endpoint to the application

The completions of the bulk-in URBs and the reads of an application that has the file open, while
the rest of the driver goes on. -/

namespace AptUsbtrx

/-- EP1-CH02A with its own dispatcher. -/
def Ep1Ch02a.fileInterface : FileInterface ApCt2a.UniqueDataCan ApCt2a.KernelEnv where
  uniqueDispatch := Ep1Ch02a.dispatchMsg
  func := uniqueCan
  notify := ApCt2a.cmdNotifyRecvCANFrame
  isFile uniqueData := uniqueData.ifType = .file
  dispatch_notify env dev data msg hongoing hfile hid := by
    rw [AptUsbtrx.dispatchMsg, if_neg (not_not_intro hongoing), hid, if_neg (by decide),
      if_neg (by decide), if_neg (by decide), Ep1Ch02a.dispatchMsg, hid, if_neg (by decide),
      ApCt2a.dispatchMsg, hid, if_pos rfl, if_pos (of_decide_eq_true hfile)]
    rfl

/-- The functions that the driver of the device registers. -/
def FileDevice.registered : (device : FileDevice) → FileInterface device.UniqueData device.Env
  | apCt2a => ApCt2a.fileInterface
  | ep1Ch02a => Ep1Ch02a.fileInterface
  | ep1Cf02a => Ep1Cf02a.fileInterface
  | ep1Ag08a => Ep1Ag08a.fileInterface

/-- How bytes leave `rx_data`: in a read, or thrown away with the ring as it was. -/
inductive RxDeparture where
  | read (result : FileRead)
  | clear (ring : Ringbuffer)

/-- The driver with the bytes that the URBs have brought and what has left `rx_data`. -/
structure Delivery (υ : Type) where
  dev : Dev υ
  wire : List UInt8
  departures : List RxDeparture

/-- A completion of a URB, a read of the application, the clearing of `rx_data` by an ioctl that
starts the device, and any work of the driver that does not touch `rx_data`, after which the file
is still open as it was. Each of them is one step, and there is one reader. -/
inductive DeliveryLabel (υ κ : Type) where
  | urb (env : κ) (status : UrbStatus) (recv : List UInt8) (msg : Msg)
  | read (copyToUser : ℕ → ℕ → Bool) (buffer count : ℕ) (relativeTimeNs : UInt64)
      (interrupted : Bool)
  | clear
  | elsewhere (dev : Dev υ)

namespace Delivery

variable {υ κ : Type}

/-- The file has just been opened; a part of a frame may have come before. -/
def start (dev : Dev υ) : Delivery υ :=
  ⟨dev, dev.rxTransfer.buffer.take dev.rxTransfer.dataSize, []⟩

def step (interface : FileInterface υ κ) (rbmsgAddr : ℕ) (s : Delivery υ) :
    DeliveryLabel υ κ → Option (Delivery υ)
  | .urb env status recv msg =>
      if recv.length ≤ rxBufferSize then
        some { s with
          dev := s.dev.readBulkCallback (interface.uniqueDispatch env) status recv msg
          wire := if status = .ok then s.wire ++ recv else s.wire }
      else none
  | .read copyToUser buffer count relativeTimeNs interrupted =>
      if count ≤ maxRwCount then
        (AptUsbtrx.read interface.func copyToUser rbmsgAddr s.dev buffer count relativeTimeNs
          interrupted).map fun (result, dev) =>
            { s with dev := dev, departures := s.departures ++ [.read result] }
      else none
  | .clear =>
      some { s with
        dev := { s.dev with rxData := ringbufferClear s.dev.rxData }
        departures := s.departures ++ [.clear s.dev.rxData] }
  | .elsewhere dev =>
      if interface.isFile dev.uniqueData then
        some { s with
          dev :=
            { dev with
              rxData := s.dev.rxData
              rxTransfer := s.dev.rxTransfer
              rxOngoing := s.dev.rxOngoing
              onopening := s.dev.onopening
              onclosing := s.dev.onclosing
              timestampMode := s.dev.timestampMode } }
      else none

end Delivery

end AptUsbtrx
