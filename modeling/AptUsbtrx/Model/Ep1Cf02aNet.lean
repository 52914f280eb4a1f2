import AptUsbtrx.Model.Netdev

/-! # The network interface of the EP1-CF02A

The device data with the network interface, and the dispatcher that hands the received
frames to it. -/

namespace AptUsbtrx

open Memory

namespace Ep1Cf02a

def canFrameFlagBrs : UInt8 := 0x01
def canFrameFlagEsi : UInt8 := 0x02
def canFrameFlagFdf : UInt8 := 0x04

/-- `can_fd_dlc2len` -/
def canFdDlc2len (dlc : ℕ) : ℕ :=
  [0, 1, 2, 3, 4, 5, 6, 7, 8, 12, 16, 20, 24, 32, 48, 64].getD dlc 64

/-- The frame that `ep1_cf02a_rx_can_msg` builds. -/
def rxSkb (resetTs : Timespec64) (payload : List UInt8) : RxSkb :=
  let flags := byteAt payload 13
  let isCanfd : Bool := flags &&& canFrameFlagFdf ≠ 0
  let dlc := (byteAt payload 12 &&& 0x0F).toNat
  let len := if isCanfd then canFdDlc2len dlc else dlc
  { hwtstamp := (convertTimestampToTimespec64 payload).toNs - resetTs.toNs
    isCanfd := isCanfd
    canId := le32 payload 8
    len := len
    flags :=
      if isCanfd then
        (if flags &&& canFrameFlagBrs ≠ 0 then canfdBrs else 0) |||
          (if flags &&& canFrameFlagEsi ≠ 0 then canfdEsi else 0) ||| canfdFdf
      else 0
    data := slice payload 14 len }

/-- `ep1_cf02a_unique_data_t` with its network interface. -/
structure NetUniqueData extends UniqueData where
  netdev : Netdev
  deriving DecidableEq

/-- The device without its network interface. -/
def offline (dev : Dev NetUniqueData) : Dev UniqueData :=
  { dev with uniqueData := dev.uniqueData.toUniqueData }

/-- `ep1_cf02a_dispatch_msg` with `ep1_cf02a_rx_can_msg`; `allocated` tells whether there is an
`sk_buff`. -/
def netDispatchMsg (allocated : Bool) : Dispatch (Dev NetUniqueData) := fun dev data msg =>
  let uniqueData := dev.uniqueData
  if msg.id = cmdNotifyRecvCANFrame ∧ uniqueData.ifType = .net then
    ({ dev with uniqueData := { uniqueData with
      netdev := uniqueData.netdev.receive allocated
        (rxSkb uniqueData.netdev.resetTs msg.payload) } }, .success)
  else
    let (dev, result) := dispatchMsg (offline dev) data msg
    ({ dev with uniqueData := { uniqueData with toUniqueData := dev.uniqueData } }, result)

end Ep1Cf02a

end AptUsbtrx
