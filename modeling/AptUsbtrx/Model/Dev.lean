import AptUsbtrx.Model.Msg
import AptUsbtrx.Model.Ringbuffer

/-! # The device

The parts of `apt_usbtrx_def.h` that the receive path, the commands, the transmit path
and the character device share. -/

namespace AptUsbtrx

def maxTxUrbs : ℕ := 4
def rxBufferSize : ℕ := 1024
def txdataBufferSize : ℕ := 256 * 1024
def txTokenExpiredTime : ℕ := 1
def txTransferLimitRate : ℕ := 80

def eio : ℤ := 5
def enomem : ℤ := 12
def efault : ℤ := 14
def ebusy : ℤ := 16
def enodev : ℤ := 19
def einval : ℤ := 22
def erange : ℤ := 34
def eshutdown : ℤ := 108
def erestartsys : ℤ := 512

/-- The size `apt_usbtrx_probe` allocates for `rx_transfer.buffer`. -/
def rxTransferBufferSize : ℕ := rxBufferSize * 2

/-- `apt_usbtrx_rx_transfer_t` -/
structure RxTransfer where
  buffer : List UInt8
  dataSize : ℕ
  deriving DecidableEq

/-- `apt_usbtrx_rx_complete_t`. The completion is its count `done`. -/
structure RxComplete where
  done : ℕ
  id : UInt8
  buffer : List UInt8
  bufferSize : ℕ
  dataSize : ℕ
  deriving DecidableEq

/-- `struct timespec64` -/
structure Timespec64 where
  tvSec : ℤ
  tvNsec : ℤ
  deriving DecidableEq

/-- `enum APT_USBTRX_TIMESTAMP_MODE` -/
inductive TimestampMode where
  | device
  | host
  deriving DecidableEq

/-- `apt_usbtrx_dev_t` with the data `υ` of one kind of device as `unique_data`. -/
structure Dev (υ : Type) where
  rxData : Ringbuffer
  rxTransfer : RxTransfer
  rxComplete : RxComplete
  rxOngoing : Bool
  basetime : Timespec64
  onopening : Bool
  onclosing : Bool
  resettime : Timespec64
  txData : Ringbuffer
  txDataClearRequested : Bool
  txBufferRate : ℕ
  timestampMode : TimestampMode
  rxRbmsg : List UInt8
  uniqueData : υ

/-- The device once `apt_usbtrx_setup_rx_urbs` has started the reception. The two rings are
at the addresses given, `time` is the first base time. -/
def Dev.probed {υ : Type} (rxDataAddr rxDataSize txDataAddr : ℕ) (time : Timespec64)
    (uniqueData : υ) : Dev υ where
  rxData := ringbufferInit rxDataAddr rxDataSize
  rxTransfer := ⟨List.replicate rxTransferBufferSize 0, 0⟩
  rxComplete := ⟨0, 0, List.replicate rxBufferSize 0, rxBufferSize, 0⟩
  rxOngoing := true
  basetime := time
  onopening := true
  onclosing := false
  resettime := ⟨0, 0⟩
  txData := ringbufferInit txDataAddr txdataBufferSize
  txDataClearRequested := false
  txBufferRate := 0
  timestampMode := .device
  rxRbmsg := List.replicate rxDataSize 0
  uniqueData := uniqueData

end AptUsbtrx
