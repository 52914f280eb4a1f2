import AptUsbtrx.Model.NetStats

/-! # Received frames of a network interface

The receive paths of the two kinds of CAN interfaces side by side. -/

namespace AptUsbtrx

open Memory Ep1Cf02a

namespace CanNet

/-- The frame that the receive path builds of the payload of a notification. -/
def rxSkb : CanNet → Netdev → List UInt8 → RxSkb
  | apCt2a, _, payload => ApCt2a.rxSkb payload
  | ep1Cf02a, netdev, payload => Ep1Cf02a.rxSkb netdev.resetTs payload

/-- `apt_usbtrx_unique_can_rx_can_msg` and `ep1_cf02a_rx_can_msg`; `allocated` tells whether there
is an `sk_buff`. -/
def rxCanMsg (net : CanNet) (allocated : Bool) (netdev : Netdev) (payload : List UInt8) : Netdev :=
  netdev.receive allocated (net.rxSkb netdev payload)

end CanNet

/-- The most data that a `struct can_frame` or a `struct canfd_frame` holds. -/
def RxSkb.maxLen (skb : RxSkb) : ℕ := if skb.isCanfd then 64 else 8

/-- The length and the bytes copied fit into the frame. -/
def RxSkb.WellFormed (skb : RxSkb) : Prop :=
  skb.len ≤ skb.maxLen ∧ skb.data.length ≤ skb.maxLen

instance RxSkb.decidableWellFormed (skb : RxSkb) : Decidable skb.WellFormed :=
  inferInstanceAs (Decidable (_ ∧ _))

end AptUsbtrx
