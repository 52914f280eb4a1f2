import AptUsbtrx.Model.ApCt2a
import AptUsbtrx.Model.Flight
import AptUsbtrx.Model.NetTransmit

/-! # The transmit statistics of a network interface

`ndo_start_xmit` records the size of a frame, and the completion of a URB adds the size last
recorded to the statistics. -/

namespace AptUsbtrx

open Memory Ep1Cf02a

namespace ApCt2a

/-- `APT_USBTRX_CMD_SendCANFrame` -/
def cmdSendCANFrame : UInt8 := 0x0F

/-- `sizeof(apt_usbtrx_payload_send_can_frame_t)` -/
def sendCfSize : UInt8 := 13

/-- `sizeof(send_cf.data) / sizeof(send_cf.data[0])` -/
def sendCfDataSize : UInt8 := 8

/-- The `apt_usbtrx_payload_send_can_frame_t` that `apt_usbtrx_unique_can_netdev_start_xmit` fills
in. -/
def sendCf (skb : TxSkb) : List UInt8 :=
  [(skb.canId &&& 0xFF).toUInt8, ((skb.canId &&& 0xFF00) >>> 8).toUInt8,
    ((skb.canId &&& 0xFF0000) >>> 16).toUInt8, ((skb.canId &&& 0xFF000000) >>> 24).toUInt8,
    skb.len] ++ overwrite (List.replicate 8 0) 0 (skb.data.take skb.len.toNat)

end ApCt2a

/-- The kinds of CAN interfaces. The EP1-CH02A has the functions of the AP-CT2A. -/
inductive CanNet where
  | apCt2a
  | ep1Cf02a
  deriving DecidableEq

namespace CanNet

def writeCmdId : CanNet → UInt8
  | apCt2a => ApCt2a.cmdSendCANFrame
  | ep1Cf02a => Ep1Cf02a.cmdSendCANFrame

def sendCfSize : CanNet → UInt8
  | apCt2a => ApCt2a.sendCfSize
  | ep1Cf02a => Ep1Cf02a.sendCfSize

def sendCf : CanNet → TxSkb → List UInt8
  | apCt2a => ApCt2a.sendCf
  | ep1Cf02a => Ep1Cf02a.sendCf

/-- What `ndo_start_xmit` records in `tx_data_size`. -/
def txDataSize : CanNet → TxSkb → UInt8
  | apCt2a, _ => ApCt2a.sendCfDataSize
  | ep1Cf02a, skb => skb.len

/-- The check of `apt_usbtrx_unique_can_netdev_start_xmit` on the length. -/
def unsupported : CanNet → TxSkb → Bool
  | apCt2a, skb => ApCt2a.sendCfDataSize < skb.len
  | ep1Cf02a, _ => false

/-- The frames that the kernel hands over and that `can_dropped_invalid_skb` does not drop. -/
def Valid (net : CanNet) (skb : TxSkb) : Prop :=
  skb.len ≤ (if skb.isCanfd then 64 else 8) ∧ (net = apCt2a → skb.isCanfd = false)

instance (net : CanNet) (skb : TxSkb) : Decidable (net.Valid skb) :=
  inferInstanceAs (Decidable (_ ∧ _))

end CanNet

/-- The transmit path under a network interface that may be down. `xmit` is the frame in the hands
of `ndo_start_xmit` between `netif_stop_queue` and `apt_usbtrx_write_tx_rb`, `waking` counts the
completions in front of `netif_wake_queue`. `origins` tells for every accepted frame its data length
when it comes from the interface, and `completed` that of the frames whose URBs have completed. -/
structure NetStatsSystem (υ : Type) where
  flight : FlightSystem υ
  up : Bool
  queueStopped : Bool
  xmit : Option TxSkb
  waking : ℕ
  txDataSize : UInt8
  txPackets : UInt64
  txBytes : UInt64
  origins : List (Option UInt8)
  completed : List (Option UInt8)

/-- The operations of the interface, a write to the file, a completion with what
`netif_device_present` returns, or another step of the transmit path. -/
inductive NetStatsLabel where
  | netdevOpen
  | netdevClose
  | startXmit (silent dropped : Bool) (skb : TxSkb)
  | writeTxRb (msg : Msg)
  | write (payload : List UInt8) (payloadSize : UInt8) (msg : Msg)
  | complete (k : ℕ) (present : Bool)
  | wakeQueue
  | flight (label : FlightLabel)

namespace NetStatsSystem

variable {υ : Type}

/-- The interface is down and nothing is sent. -/
def start (dev : Dev υ) (transferMaxToken : ℤ) : NetStatsSystem υ where
  flight := FlightSystem.start dev transferMaxToken
  up := false
  queueStopped := true
  xmit := none
  waking := 0
  txDataSize := 0
  txPackets := 0
  txBytes := 0
  origins := []
  completed := []

/-- A call of `apt_usbtrx_write_tx_rb` for a frame of the given origin. -/
def writeFrame (net : CanNet) (s : NetStatsSystem υ) (origin : Option UInt8)
    (payload : List UInt8) (payloadSize : UInt8) (msg : Msg) : NetStatsSystem υ :=
  let ret := (AptUsbtrx.writeTxRb net.writeCmdId s.flight.tx.dev payload payloadSize msg).1
  { s with
    flight := { s.flight with tx := s.flight.tx.write net.writeCmdId payload payloadSize msg }
    origins := if ret > 0 then s.origins ++ [origin] else s.origins }

/-- `ndo_start_xmit` up to the write. The kernel calls it for one frame at a time while the
interface is up, and never while the queue is stopped. `dropped` is what `can_dropped_invalid_skb`
returns. -/
def startXmit (net : CanNet) (s : NetStatsSystem υ) (silent dropped : Bool) (skb : TxSkb) :
    Option (NetStatsSystem υ) :=
  if s.up = false ∨ s.queueStopped ∨ s.xmit.isSome then none
  else if silent then some s
  else if dropped then some s
  else if ¬ net.Valid skb then none
  else if net.unsupported skb then some s
  else some { s with
    txDataSize := net.txDataSize skb
    queueStopped := true
    xmit := some skb }

/-- The origin of a frame. -/
def origin (s : NetStatsSystem υ) (k : ℕ) : Option UInt8 := s.origins[k]?.join

/-- `unique_func.write_bulk_callback` for the frame `k`, up to `netif_wake_queue`. -/
def writeBulkCallback (s : NetStatsSystem υ) (k : ℕ) (present : Bool) : NetStatsSystem υ :=
  let s := { s with completed := s.completed ++ [s.origin k] }
  if present then
    { s with
      txPackets := s.txPackets + 1
      txBytes := s.txBytes + s.txDataSize.toUInt64
      waking := s.waking + 1 }
  else s

/-- A step of the transmit path that is no write and no completion. -/
def internal : FlightLabel → Bool
  | .tx (.write ..) | .complete _ => false
  | _ => true

def step (net : CanNet) (bufferAddr : ℕ) (s : NetStatsSystem υ) :
    NetStatsLabel → Option (NetStatsSystem υ)
  | .netdevOpen =>
      if s.up = false then some { s with up := true, queueStopped := false } else none
  | .netdevClose =>
      if s.up = true ∧ s.xmit = none then some { s with up := false, queueStopped := true } else none
  | .startXmit silent dropped skb => s.startXmit net silent dropped skb
  | .writeTxRb msg =>
      s.xmit.map fun skb =>
        { s.writeFrame net (some skb.len) (net.sendCf skb) net.sendCfSize msg with xmit := none }
  | .write payload payloadSize msg =>
      if s.up = false then some (s.writeFrame net none payload payloadSize msg) else none
  | .complete k present =>
      (s.flight.step net.writeCmdId bufferAddr (.complete k)).map fun flight =>
        { s with flight := flight }.writeBulkCallback k present
  | .wakeQueue =>
      if s.waking > 0 then some { s with queueStopped := false, waking := s.waking - 1 }
      else none
  | .flight label =>
      if internal label then
        (s.flight.step net.writeCmdId bufferAddr label).map fun flight =>
          { s with flight := flight }
      else none

end NetStatsSystem

end AptUsbtrx
