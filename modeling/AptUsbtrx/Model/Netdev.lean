import AptUsbtrx.Model.Ep1Cf02a

/-! # Received frames and the network interface

What the dispatchers of the CAN units hand to `netif_rx`, and the counters they keep. -/

namespace AptUsbtrx

open Memory Ep1Cf02a

def canErrFlag : ℕ := 0x20000000
def canRtrFlag : ℕ := 0x40000000
def canEffFlag : ℕ := 0x80000000
def canfdBrs : UInt8 := 0x01
def canfdEsi : UInt8 := 0x02
def canfdFdf : UInt8 := 0x04

/-- The `sk_buff` of a received frame: a `struct canfd_frame` or, with no flags, a
`struct can_frame`. `hwtstamp` is in nanoseconds. -/
@[ext] structure RxSkb where
  hwtstamp : ℤ
  isCanfd : Bool
  canId : ℕ
  len : ℕ
  flags : UInt8
  data : List UInt8
  deriving DecidableEq

/-- The part of `struct net_device` and its private data that a reception works on. `present`
is `netif_device_present`, `received` are the frames handed to `netif_rx`. -/
structure Netdev where
  present : Bool
  resetTs : Timespec64
  rxPackets : ℕ
  rxBytes : ℕ
  received : List RxSkb
  deriving DecidableEq

/-- `alloc_can_skb` to `netif_rx`; `allocated` tells whether there is memory for the frame. -/
def Netdev.receive (netdev : Netdev) (allocated : Bool) (skb : RxSkb) : Netdev :=
  if ¬ netdev.present then netdev
  else if ¬ allocated then netdev
  else { netdev with
    rxPackets := netdev.rxPackets + 1
    rxBytes := netdev.rxBytes + skb.len
    received := netdev.received ++ [skb] }

/-- `timespec64_to_ns` -/
def Timespec64.toNs (ts : Timespec64) : ℤ := ts.tvSec * 1000000000 + ts.tvNsec

/-- `apt_usbtrx_convert_timestamp_to_timespec64` for the timestamp at the start of a payload;
the product is one of `u32`. -/
def convertTimestampToTimespec64 (payload : List UInt8) : Timespec64 :=
  ⟨le32 payload 0, (le32 payload 4 * 1000) % 2 ^ 32⟩

end AptUsbtrx
