import AptUsbtrx.Model.ApCt2a
import AptUsbtrx.Model.Ep1Ag08a
import AptUsbtrx.Model.Ep1Cf02aNet
import AptUsbtrx.Model.Fops

/-! # Notifications for the file

What the dispatchers store of the received data while the interface is the file, and the walk
through it with the sizes that the payloads give. -/

namespace AptUsbtrx

/-- The part of a device that hands received data to the file: its dispatcher, which takes a `κ`
from the kernel, and the notification that goes to `rx_data` as it is. -/
structure FileInterface (υ κ : Type) where
  uniqueDispatch : κ → Dispatch (Dev υ)
  func : UniqueFunction
  notify : UInt8
  isFile : υ → Bool
  dispatch_notify : ∀ env dev data msg, dev.rxOngoing = true → isFile dev.uniqueData = true →
    msg.id = notify → (dispatchMsg (uniqueDispatch env) dev data msg).1 =
      { dev with rxData := (ringbufferWrite dev.rxData msg.payload msg.payloadSize.toNat).2 }

/-- AP-CT2A; EP1-CH02A has the same functions. -/
def ApCt2a.fileInterface : FileInterface ApCt2a.UniqueDataCan ApCt2a.KernelEnv where
  uniqueDispatch := ApCt2a.dispatchMsg
  func := uniqueCan
  notify := ApCt2a.cmdNotifyRecvCANFrame
  isFile uniqueData := uniqueData.ifType = .file
  dispatch_notify env dev data msg hongoing hfile hid := by
    rw [AptUsbtrx.dispatchMsg, if_neg (not_not_intro hongoing), hid, if_neg (by decide),
      if_neg (by decide), if_neg (by decide), ApCt2a.dispatchMsg, hid, if_pos rfl,
      if_pos (of_decide_eq_true hfile)]
    rfl

def Ep1Cf02a.fileInterface : FileInterface Ep1Cf02a.NetUniqueData Bool where
  uniqueDispatch := Ep1Cf02a.netDispatchMsg
  func := Ep1Cf02a.uniqueFunction
  notify := Ep1Cf02a.cmdNotifyRecvCANFrame
  isFile uniqueData := uniqueData.ifType = .file
  dispatch_notify env dev data msg hongoing hfile hid := by
    have hifType : dev.uniqueData.ifType = .file := of_decide_eq_true hfile
    rw [AptUsbtrx.dispatchMsg, if_neg (not_not_intro hongoing), hid, if_neg (by decide),
      if_neg (by decide), if_neg (by decide), Ep1Cf02a.netDispatchMsg, hifType, if_neg (by simp),
      Ep1Cf02a.dispatchMsg, hid, if_pos rfl, Ep1Cf02a.offline, if_pos hifType]
    rfl

def Ep1Ag08a.fileInterface : FileInterface Ep1Ag08a.UniqueData ℤ where
  uniqueDispatch := Ep1Ag08a.dispatchMsg
  func := Ep1Ag08a.uniqueFunction
  notify := Ep1Ag08a.cmdNotifyAnalogInput
  isFile uniqueData := uniqueData.ifType = .file
  dispatch_notify env dev data msg hongoing hfile hid := by
    rw [AptUsbtrx.dispatchMsg, if_neg (not_not_intro hongoing), hid, if_neg (by decide),
      if_neg (by decide), if_neg (by decide), Ep1Ag08a.dispatchMsg, hid, if_pos rfl,
      if_pos (of_decide_eq_true hfile)]
    rfl

inductive FileDevice where
  | apCt2a
  | ep1Ch02a
  | ep1Cf02a
  | ep1Ag08a
  deriving DecidableEq

namespace FileDevice

abbrev UniqueData : FileDevice → Type
  | apCt2a | ep1Ch02a => ApCt2a.UniqueDataCan
  | ep1Cf02a => Ep1Cf02a.NetUniqueData
  | ep1Ag08a => Ep1Ag08a.UniqueData

abbrev Env : FileDevice → Type
  | apCt2a | ep1Ch02a => ApCt2a.KernelEnv
  | ep1Cf02a => Bool
  | ep1Ag08a => ℤ

def interface : (device : FileDevice) → FileInterface device.UniqueData device.Env
  | apCt2a | ep1Ch02a => ApCt2a.fileInterface
  | ep1Cf02a => Ep1Cf02a.fileInterface
  | ep1Ag08a => Ep1Ag08a.fileInterface

end FileDevice

/-- The walk of `apt_usbtrx_parse_rbmsg` through the bytes given: the payloads it cuts off, `none`
when a size is an error or more than what is left. -/
def UniqueFunction.walk (func : UniqueFunction) : ℕ → List UInt8 → Option (List (List UInt8))
  | _, [] => some []
  | 0, _ :: _ => none
  | fuel + 1, bytes =>
      let payloadSize := func.getReadPayloadSize bytes
      if payloadSize < 0 then none
      else if payloadSize > bytes.length then none
      else
        (func.walk fuel (bytes.drop payloadSize.toNat)).map (bytes.take payloadSize.toNat :: ·)

/-- The driver with the notifications that `rx_data` has taken since it was last cleared, and how
many bytes of them have been taken out again. -/
structure FileSystem (υ : Type) where
  dev : Dev υ
  stored : List (List UInt8)
  taken : ℕ

/-- The dispatch of a notification, a read of the application, and the clearing of `rx_data` when
the reception is started. -/
inductive FileLabel (κ : Type) where
  | notify (env : κ) (data : List UInt8) (msg : Msg)
  | read (copyToUser : ℕ → ℕ → Bool) (buffer count : ℕ) (relativeTimeNs : UInt64)
      (interrupted : Bool)
  | clear

namespace FileSystem

variable {υ κ : Type}

/-- Nothing is stored. -/
def start (dev : Dev υ) : FileSystem υ := ⟨dev, [], 0⟩

def step (interface : FileInterface υ κ) (rbmsgAddr : ℕ) (s : FileSystem υ) :
    FileLabel κ → Option (FileSystem υ)
  | .notify env data msg =>
      if s.dev.rxOngoing ∧ interface.isFile s.dev.uniqueData ∧ msg.id = interface.notify ∧
          msg.payloadSize.toNat ≤ maxPayload then
        let wsize := (ringbufferWrite s.dev.rxData msg.payload msg.payloadSize.toNat).1
        some { s with
          dev := (dispatchMsg (interface.uniqueDispatch env) s.dev data msg).1
          stored := if wsize > 0 then s.stored ++ [msg.bytes] else s.stored }
      else none
  | .read copyToUser buffer count relativeTimeNs interrupted =>
      if count ≤ maxRwCount then
        (AptUsbtrx.read interface.func copyToUser rbmsgAddr s.dev buffer count relativeTimeNs
          interrupted).map fun (_, dev) =>
            { s with
              dev := dev
              taken := s.taken +
                (ringbufferGetUsedSize s.dev.rxData - ringbufferGetUsedSize dev.rxData) }
      else none
  | .clear => some ⟨{ s.dev with rxData := ringbufferClear s.dev.rxData }, [], 0⟩

end FileSystem

end AptUsbtrx
