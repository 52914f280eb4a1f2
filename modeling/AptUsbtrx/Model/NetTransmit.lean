import AptUsbtrx.Model.Ep1Cf02aNet
import AptUsbtrx.Model.Slots

/-! # Transmission from the network interface

`ep1_cf02a_netdev_start_xmit` on the transmit path, with the queue of the interface that it
stops and that `ep1_cf02a_write_bulk_callback` wakes. -/

namespace AptUsbtrx

open Memory

namespace Ep1Cf02a

/-- `can_fd_len2dlc` -/
def canFdLen2dlc (len : ℕ) : UInt8 :=
  if len ≤ 8 then UInt8.ofNat len
  else if len ≤ 12 then 9
  else if len ≤ 16 then 10
  else if len ≤ 20 then 11
  else if len ≤ 24 then 12
  else if len ≤ 32 then 13
  else if len ≤ 48 then 14
  else 15

/-- The `sk_buff` of a frame to send: a `struct canfd_frame` or a `struct can_frame`, whose `len`
is its `can_dlc`. -/
structure TxSkb where
  isCanfd : Bool
  canId : UInt32
  len : UInt8
  flags : UInt8
  data : List UInt8
  deriving DecidableEq

/-- `sizeof(ep1_cf02a_payload_send_can_frame_t)` -/
def sendCfSize : UInt8 := 70

/-- The `ep1_cf02a_payload_send_can_frame_t` that `ep1_cf02a_netdev_start_xmit` fills in. -/
def sendCf (skb : TxSkb) : List UInt8 :=
  let dlc := if skb.isCanfd then canFdLen2dlc skb.len.toNat else skb.len
  let flags :=
    if skb.isCanfd then
      canFrameFlagFdf ||| (if skb.flags &&& canfdBrs ≠ 0 then canFrameFlagBrs else 0) |||
        (if skb.flags &&& canfdEsi ≠ 0 then canFrameFlagEsi else 0)
    else 0
  [(skb.canId &&& 0xFF).toUInt8, ((skb.canId &&& 0xFF00) >>> 8).toUInt8,
    ((skb.canId &&& 0xFF0000) >>> 16).toUInt8, ((skb.canId &&& 0xFF000000) >>> 24).toUInt8,
    dlc, flags] ++ overwrite (List.replicate 64 0) 0 (skb.data.take skb.len.toNat)

end Ep1Cf02a

open Ep1Cf02a

/-- The transmit path under a network interface. `queueStopped` is the state of the queue of the
interface, `xmit` the frame in the hands of `ndo_start_xmit` between `netif_stop_queue` and
`apt_usbtrx_write_tx_rb`, `waking` counts the completions in front of `netif_wake_queue`. -/
structure NetTxSystem (υ ι : Type) where
  slots : SlotSystem υ ι
  queueStopped : Bool
  xmit : Option (List UInt8)
  waking : ℕ

/-- The two halves of `ndo_start_xmit`, the end of a completion, the part of a restart behind
`ep1_cf02a_stop_can_interface` that touches a ring, or a step of the transmit path and of the
threads in `ep1_cf02a_stop_can_interface`. -/
inductive NetTxLabel (ι : Type) where
  | startXmit (silent dropped : Bool) (skb : TxSkb)
  | writeTxRb (msg : Msg)
  | wakeQueue
  | startCanInterface
  | slots (label : SlotLabel ι)

namespace NetTxSystem

variable {υ ι : Type}

/-- `netif_start_queue` at the end of `ep1_cf02a_netdev_open`. -/
def netdevOpen (slots : SlotSystem υ ι) : NetTxSystem υ ι := ⟨slots, false, none, 0⟩

/-- `ndo_start_xmit` up to the write. The kernel calls it for one frame at a time and never while
the queue is stopped. `dropped` is what `can_dropped_invalid_skb` returns. -/
def startXmit (s : NetTxSystem υ ι) (silent dropped : Bool) (skb : TxSkb) :
    Option (NetTxSystem υ ι) :=
  if s.queueStopped ∨ s.xmit.isSome then none
  else if silent then some s
  else if dropped then some s
  else some { s with queueStopped := true, xmit := some (sendCf skb) }

/-- The rest of `ndo_start_xmit`; whether it returns `NETDEV_TX_OK` or `NETDEV_TX_BUSY`, the queue
stays as it is. -/
def writeTxRb (s : NetTxSystem υ ι) (msg : Msg) : Option (NetTxSystem υ ι) :=
  s.xmit.map fun payload =>
    { s with
      slots := { s.slots with
        tx := s.slots.tx.write cmdSendCANFrame payload sendCfSize msg }
      xmit := none }

/-- A completion enters `ep1_cf02a_write_bulk_callback`. -/
def completes : SlotLabel ι → Bool
  | .tx .writeBulkCallback => true
  | _ => false

/-- The frames of the ring come from `ndo_start_xmit`. -/
def writes : SlotLabel ι → Bool
  | .tx (.write ..) => true
  | _ => false

variable [DecidableEq ι]

def step (bufferAddr fwSize : ℕ) (s : NetTxSystem υ ι) :
    NetTxLabel ι → Option (NetTxSystem υ ι)
  | .startXmit silent dropped skb => s.startXmit silent dropped skb
  | .writeTxRb msg => s.writeTxRb msg
  | .wakeQueue =>
      if s.waking > 0 then some { s with queueStopped := false, waking := s.waking - 1 }
      else none
  | .startCanInterface =>
      let dev := { s.slots.tx.dev with rxData := ringbufferClear s.slots.tx.dev.rxData }
      some { s with slots := { s.slots with tx := { s.slots.tx with dev := dev } } }
  | .slots label =>
      if writes label then none
      else (s.slots.step cmdSendCANFrame bufferAddr fwSize label).map fun slots =>
        { s with slots := slots, waking := if completes label then s.waking + 1 else s.waking }

end NetTxSystem

end AptUsbtrx
