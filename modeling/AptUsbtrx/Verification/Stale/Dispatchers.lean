import AptUsbtrx.Model.Ep1Cf02aNet
import AptUsbtrx.Verification.Ringbuffer.Operations
import AptUsbtrx.Verification.Stale.Decoders

/-! # What the dispatchers read -/

namespace AptUsbtrx

open Memory Message

section

variable {m : Message}

/-! ### Effects that only need the message -/

theorem determines_complete (m : Message) (rx : RxComplete) (data : List UInt8) :
    m.Determines fun msg => rx.complete data msg := by
  intro msg msg' h h'
  simp only [RxComplete.complete, h.size, h'.size]

theorem RxComplete.complete_ne (rx : RxComplete) (data : List UInt8) (msg : Msg) :
    rx.complete data msg ≠ rx := by
  intro h
  have hdone : rx.done + 1 = rx.done := congrArg RxComplete.done h
  omega

theorem determines_ringbufferWrite (m : Message) {ring : Ringbuffer} (hw : ring.Wf) :
    m.Determines fun msg => ringbufferWrite ring msg.payload msg.payloadSize.toNat := by
  intro msg msg' h h'
  have hagree := agreeOn_of_holds m.covers_self h h'
  simp only [h.size, h'.size, m.toNat_payloadSize]
  rw [← ringbufferWrite_take hw msg.payload, hagree.take, ringbufferWrite_take hw]

/-! ### Frames for the network interface -/

theorem Netdev.receive_injective {netdev : Netdev} (h : netdev.present = true) :
    Function.Injective (netdev.receive true) := by
  intro skb skb' heq
  have hreceived := congrArg Netdev.received heq
  simp only [Netdev.receive, h, not_true_eq_false, if_false] at hreceived
  exact (List.cons.inj (List.append_cancel_left hreceived)).1

theorem Netdev.receive_eq_self {netdev : Netdev} {allocated : Bool}
    (h : ¬ (netdev.present = true ∧ allocated = true)) (skb : RxSkb) :
    netdev.receive allocated skb = netdev := by
  rw [Netdev.receive]
  by_cases hpresent : netdev.present = true
  · have hallocated : ¬ allocated = true := fun ha => h ⟨hpresent, ha⟩
    rw [if_neg (not_not_intro hpresent), if_pos hallocated]
  · rw [if_pos hpresent]

theorem Message.AgreeOn.timestamp {k : ℕ} {msg msg' : Msg} (h : AgreeOn k msg msg')
    (hk : 8 ≤ k) : convertTimestampToTimespec64 msg.payload =
      convertTimestampToTimespec64 msg'.payload := by
  rw [convertTimestampToTimespec64, convertTimestampToTimespec64, h.le32 (by omega),
    h.le32 (by omega)]

namespace ApCt2a

theorem rxSkb_congr {msg msg' : Msg} {k : ℕ} (h : AgreeOn k msg msg')
    (hk : 13 + (rxSkb msg.payload).len ≤ k) : rxSkb msg.payload = rxSkb msg'.payload := by
  simp only [rxSkb] at hk ⊢
  rw [← h.byteAt (show 12 < k by omega), h.timestamp (by omega), h.le32 (by omega), h.slice hk]

/-- A frame for the interface is read up to the end of its data. -/
theorem reads_rxSkb (m : Message) :
    m.Reads (fun msg => rxSkb msg.payload) (13 + (rxSkb m.payload).len) := by
  refine reads_intro ?_ ?_
  · intro hcovers msg msg' h h'
    have hlen : (rxSkb msg.payload).len = (rxSkb m.payload).len := by
      simp only [rxSkb]
      rw [h.byteAt (hcovers.mono (by omega))]
    refine rxSkb_congr (agreeOn_of_holds hcovers h h') ?_
    omega
  · intro hcovers
    by_cases hdlc : m.Covers 13
    · -- the data ends behind the message
      obtain ⟨n, hn⟩ : ∃ n, (rxSkb m.payload).len = n + 1 := by
        refine Nat.exists_eq_succ_of_ne_zero ?_
        intro hzero
        rw [hzero] at hcovers
        exact hcovers hdlc
      have hlen : (rxSkb m.payload).len ≤ 15 := by
        simp only [rxSkb, dlcMask, UInt8.toNat_and]
        exact Nat.and_le_right
      have hlast : 13 + n < maxPayload := by
        simp only [maxPayload]
        omega
      rw [hn, ← Nat.add_assoc] at hcovers
      refine ⟨_, _, m.holds_paddedAt (13 + n) 0, m.holds_paddedAt (13 + n) 1, ?_⟩
      intro h
      have hdata := congrArg RxSkb.data h
      have hbyte : ∀ b, (byteAt (m.paddedAt (13 + n) b).payload 12 &&& dlcMask).toNat = n + 1 := by
        intro b
        rw [m.byteAt_paddedAt_of_ne b (by decide) (by omega)]
        exact hn
      simp only [rxSkb, hbyte] at hdata
      exact Ep1Cf02a.slice_ne (byteAt_paddedAt_self 0 hlast hcovers)
        (byteAt_paddedAt_self 1 hlast hcovers) hdata
    · -- the data length code itself is stale
      refine ⟨_, _, m.holds_paddedAt 12 0, m.holds_paddedAt 12 1, ?_⟩
      intro h
      have hlen := congrArg RxSkb.len h
      simp only [rxSkb, byteAt_paddedAt_self _ (show 12 < maxPayload by decide) hdlc] at hlen
      exact absurd hlen (by decide)

end ApCt2a

namespace Ep1Cf02a

theorem canFdDlc2len_le (dlc : ℕ) : canFdDlc2len dlc ≤ 64 := by
  have hall : ∀ len ∈ [0, 1, 2, 3, 4, 5, 6, 7, 8, 12, 16, 20, 24, 32, 48, 64], len ≤ 64 := by
    decide
  rw [canFdDlc2len, List.getD_eq_getElem?_getD]
  cases h : [0, 1, 2, 3, 4, 5, 6, 7, 8, 12, 16, 20, 24, 32, 48, 64][dlc]? with
  | none => exact le_rfl
  | some len => exact hall len (List.mem_of_getElem? h)

theorem rxSkb_len_le (resetTs : Timespec64) (payload : List UInt8) :
    (rxSkb resetTs payload).len ≤ 64 := by
  simp only [rxSkb]
  split
  case isTrue => exact canFdDlc2len_le _
  case isFalse =>
    have hmask : (byteAt payload 12 &&& 0x0F).toNat ≤ 15 := by
      rw [UInt8.toNat_and]
      exact Nat.and_le_right
    omega

theorem rxSkb_data (resetTs : Timespec64) (payload : List UInt8) :
    (rxSkb resetTs payload).data = slice payload 14 (rxSkb resetTs payload).len := rfl

/-- The length of the data depends on the two bytes in front of it. -/
theorem rxSkb_len_congr {payload payload' : List UInt8} (resetTs : Timespec64)
    (hdlc : byteAt payload 12 = byteAt payload' 12)
    (hflags : byteAt payload 13 = byteAt payload' 13) :
    (rxSkb resetTs payload).len = (rxSkb resetTs payload').len := by
  simp only [rxSkb, hdlc, hflags]

theorem rxSkb_congr {msg msg' : Msg} {resetTs : Timespec64} {k : ℕ} (h : AgreeOn k msg msg')
    (hk : 14 + (rxSkb resetTs msg.payload).len ≤ k) :
    rxSkb resetTs msg.payload = rxSkb resetTs msg'.payload := by
  have hlen := rxSkb_len_congr resetTs (h.byteAt (show 12 < k by omega))
    (h.byteAt (show 13 < k by omega))
  have hflags := h.byteAt (show 13 < k by omega)
  apply RxSkb.ext
  · simp only [rxSkb]
    rw [h.timestamp (by omega)]
  · simp only [rxSkb, hflags]
  · exact h.le32 (by omega)
  · exact hlen
  · simp only [rxSkb, hflags]
  · rw [rxSkb_data, rxSkb_data, ← hlen]
    exact h.slice hk

/-- A frame for the interface is read up to the end of its data. -/
theorem reads_rxSkb (m : Message) (resetTs : Timespec64) :
    m.Reads (fun msg => rxSkb resetTs msg.payload) (14 + (rxSkb resetTs m.payload).len) := by
  refine reads_intro ?_ ?_
  · intro hcovers msg msg' h h'
    have hlen : (rxSkb resetTs msg.payload).len = (rxSkb resetTs m.payload).len :=
      rxSkb_len_congr resetTs (h.byteAt (hcovers.mono (by omega)))
        (h.byteAt (hcovers.mono (by omega)))
    refine rxSkb_congr (agreeOn_of_holds hcovers h h') ?_
    omega
  · intro hcovers
    by_cases hflags : m.Covers 14
    · -- the data ends behind the message
      obtain ⟨n, hn⟩ : ∃ n, (rxSkb resetTs m.payload).len = n + 1 := by
        refine Nat.exists_eq_succ_of_ne_zero ?_
        intro hzero
        rw [hzero] at hcovers
        exact hcovers hflags
      have hlen := rxSkb_len_le resetTs m.payload
      have hlast : 14 + n < maxPayload := by
        simp only [maxPayload]
        omega
      rw [hn, ← Nat.add_assoc] at hcovers
      refine ⟨_, _, m.holds_paddedAt (14 + n) 0, m.holds_paddedAt (14 + n) 1, ?_⟩
      intro h
      have hstale : ∀ b, (rxSkb resetTs (m.paddedAt (14 + n) b).payload).len = n + 1 := by
        intro b
        rw [← hn]
        exact rxSkb_len_congr resetTs (m.byteAt_paddedAt_of_ne b (by decide) (by omega))
          (m.byteAt_paddedAt_of_ne b (by decide) (by omega))
      have hdata := congrArg RxSkb.data h
      rw [rxSkb_data, rxSkb_data, hstale, hstale] at hdata
      exact slice_ne (byteAt_paddedAt_self 0 hlast hcovers)
        (byteAt_paddedAt_self 1 hlast hcovers) hdata
    · by_cases hdlc : m.Covers 13
      · -- the flags are stale
        refine ⟨_, _, m.holds_paddedAt 13 0, m.holds_paddedAt 13 4, ?_⟩
        intro h
        have hcanfd := congrArg RxSkb.isCanfd h
        simp only [rxSkb, byteAt_paddedAt_self _ (show 13 < maxPayload by decide) hflags] at hcanfd
        exact absurd hcanfd (by decide)
      · -- the data length code is stale, and so are the flags
        refine ⟨_, _, m.holds_paddedAt 12 0, m.holds_paddedAt 12 1, ?_⟩
        intro h
        have hzero : byteAt m.payload 13 = 0 := by
          rw [covers_iff] at hflags
          exact byteAt_of_length_le (by omega)
        have hlen := congrArg RxSkb.len h
        simp only [rxSkb, byteAt_paddedAt_self _ (show 12 < maxPayload by decide) hdlc,
          m.byteAt_paddedAt_of_ne _ (show 13 < maxPayload by decide) (show 13 ≠ 12 by decide),
          hzero] at hlen
        exact absurd hlen (by decide)

end Ep1Cf02a

end

end AptUsbtrx
