import AptUsbtrx.Model.Fops
import AptUsbtrx.Model.NetFrames
import AptUsbtrx.Verification.Msg.Words
import AptUsbtrx.Verification.Stale.Dispatchers

/-! # Frames that the network interfaces deliver

Which notifications become well-formed frames, and what becomes of a frame that is sent and
received again. -/

namespace AptUsbtrx

open Memory Ep1Cf02a

/-! ### The dispatchers -/

theorem ApCt2a.dispatchMsg_net (env : ApCt2a.KernelEnv) (dev : Dev ApCt2a.UniqueDataCan)
    (data : List UInt8) (msg : Msg) (hid : msg.id = ApCt2a.cmdNotifyRecvCANFrame)
    (hnet : dev.uniqueData.ifType = .net) :
    (ApCt2a.dispatchMsg env dev data msg).1.uniqueData.netdev =
      CanNet.apCt2a.rxCanMsg env.allocated dev.uniqueData.netdev msg.payload := by
  rw [ApCt2a.dispatchMsg, if_pos hid, hnet, if_neg (by decide), if_pos rfl]
  rfl

theorem Ep1Cf02a.netDispatchMsg_net (allocated : Bool) (dev : Dev Ep1Cf02a.NetUniqueData)
    (data : List UInt8) (msg : Msg) (hid : msg.id = Ep1Cf02a.cmdNotifyRecvCANFrame)
    (hnet : dev.uniqueData.ifType = .net) :
    (Ep1Cf02a.netDispatchMsg allocated dev data msg).1.uniqueData.netdev =
      CanNet.ep1Cf02a.rxCanMsg allocated dev.uniqueData.netdev msg.payload := by
  rw [Ep1Cf02a.netDispatchMsg, if_pos ⟨hid, hnet⟩]
  rfl

/-! ### Well-formed frames -/

/-- The notification is one of an FD frame to the receive path. -/
def CanNet.isFdPayload (payload : List UInt8) : CanNet → Bool
  | apCt2a => false
  | ep1Cf02a => byteAt payload 13 &&& canFrameFlagFdf ≠ 0

/-- The data length code of a notification. -/
def payloadDlc (payload : List UInt8) : ℕ := (byteAt payload 12 &&& 0x0F).toNat

namespace CanNet

variable (net : CanNet) (netdev : Netdev) (payload : List UInt8)

theorem rxSkb_isCanfd : (net.rxSkb netdev payload).isCanfd = net.isFdPayload payload := by
  cases net <;> rfl

theorem rxSkb_len : (net.rxSkb netdev payload).len =
    if net.isFdPayload payload then canFdDlc2len (payloadDlc payload) else payloadDlc payload := by
  cases net <;> rfl

/-- What is copied is never longer than the length that the frame gets. -/
theorem length_rxSkb_data :
    (net.rxSkb netdev payload).data.length ≤ (net.rxSkb netdev payload).len := by
  cases net with
  | apCt2a | ep1Cf02a => exact (length_slice _ _ _).trans_le (Nat.min_le_left _ _)

theorem wellFormed_iff : (net.rxSkb netdev payload).WellFormed ↔
    net.isFdPayload payload = true ∨ payloadDlc payload ≤ 8 := by
  have hdata := net.length_rxSkb_data netdev payload
  rw [RxSkb.WellFormed, RxSkb.maxLen, rxSkb_isCanfd]
  rw [rxSkb_len] at hdata ⊢
  by_cases hfd : net.isFdPayload payload = true
  · have hlen := canFdDlc2len_le (payloadDlc payload)
    rw [if_pos hfd] at hdata
    rw [if_pos hfd, if_pos hfd]
    exact iff_of_true ⟨hlen, hdata.trans hlen⟩ (.inl hfd)
  · rw [if_neg hfd] at hdata
    rw [if_neg hfd, if_neg hfd, or_iff_right hfd]
    exact ⟨And.left, fun hlen => ⟨hlen, hdata.trans hlen⟩⟩

theorem received_rxCanMsg (allocated : Bool) :
    (net.rxCanMsg allocated netdev payload).received = netdev.received ++
      if netdev.present ∧ allocated then [net.rxSkb netdev payload] else [] := by
  rw [rxCanMsg, Netdev.receive]
  cases netdev.present <;> cases allocated <;> simp

/-- The receive path delivers nothing but well-formed frames exactly if it delivers none, the frame
is an FD frame, or the code is that of a length of at most eight bytes. -/
theorem rxCanMsg_wellFormed_iff (allocated : Bool) :
    (∀ skb ∈ (net.rxCanMsg allocated netdev payload).received.drop netdev.received.length,
        skb.WellFormed) ↔
      netdev.present = false ∨ allocated = false ∨ net.isFdPayload payload = true ∨
        payloadDlc payload ≤ 8 := by
  rw [received_rxCanMsg, List.drop_left]
  cases hpresent : netdev.present with
  | false => simp
  | true =>
      cases allocated with
      | false => simp
      | true => simp [wellFormed_iff]

/-- A classic frame with the code nine. -/
theorem rxCanMsg_overlong :
    ¬ ∀ skb ∈ (ep1Cf02a.rxCanMsg true ⟨true, ⟨0, 0⟩, 0, 0, []⟩
        (List.replicate 12 0 ++ 9 :: List.replicate 65 0)).received, skb.WellFormed := by
  decide

end CanNet

/-! ### Sent and received again -/

/-- The lengths of FD frames. -/
def fdLengths : List ℕ := [0, 1, 2, 3, 4, 5, 6, 7, 8, 12, 16, 20, 24, 32, 48, 64]

/-- The length code of an FD frame stands for the next valid length. -/
theorem canFdDlc2len_canFdLen2dlc {len : ℕ} (h : len ≤ 64) :
    canFdLen2dlc len ≤ 15 ∧ canFdDlc2len (canFdLen2dlc len).toNat ∈ fdLengths ∧
      len ≤ canFdDlc2len (canFdLen2dlc len).toNat ∧
      ∀ valid ∈ fdLengths, len ≤ valid → canFdDlc2len (canFdLen2dlc len).toNat ≤ valid := by
  have hall : ∀ len ≤ 64, canFdLen2dlc len ≤ 15 ∧
      canFdDlc2len (canFdLen2dlc len).toNat ∈ fdLengths ∧
      len ≤ canFdDlc2len (canFdLen2dlc len).toNat ∧
      ∀ valid ∈ fdLengths, len ≤ valid → canFdDlc2len (canFdLen2dlc len).toNat ≤ valid := by
    decide
  exact hall len h

/-- The frame received is the frame sent, an FD frame with zeros up to the next valid length. -/
structure Echoes (skb : TxSkb) (rx : RxSkb) : Prop where
  isCanfd : rx.isCanfd = skb.isCanfd
  canId : rx.canId = skb.canId.toNat
  brs : skb.isCanfd = true → rx.flags &&& canfdBrs = skb.flags &&& canfdBrs
  esi : skb.isCanfd = true → rx.flags &&& canfdEsi = skb.flags &&& canfdEsi
  len_classic : skb.isCanfd = false → rx.len = skb.len.toNat
  len_fd : skb.isCanfd = true →
    IsLeast {valid | valid ∈ fdLengths ∧ skb.len.toNat ≤ valid} rx.len
  data : rx.data = skb.data.take skb.len.toNat ++ List.replicate (rx.len - skb.len.toNat) 0

theorem toNat_masked {mask k : UInt32} (h : mask >>> k = 0xFF) (v : UInt32) :
    ((v &&& mask) >>> k).toUInt8.toNat = v.toNat / 2 ^ (k.toNat % 32) % 2 ^ 8 := by
  have hbyte : ∀ w : UInt32, (w &&& 0xFF).toUInt8.toNat = w.toNat % 2 ^ 8 := by
    intro w
    rw [UInt32.toNat_toUInt8, UInt32.toNat_and]
    change (w.toNat &&& (2 ^ 8 - 1)) % 2 ^ 8 = _
    rw [Nat.and_two_pow_sub_one_eq_mod, Nat.mod_mod]
  rw [UInt32.shiftRight_and, h, hbyte, UInt32.toNat_shiftRight, Nat.shiftRight_eq_div_pow]

/-- The four bytes of an id come back as the id. -/
theorem le32_canId (v : UInt32) (before behind : List UInt8) :
    le32 (before ++ [(v &&& 0xFF).toUInt8, ((v &&& 0xFF00) >>> 8).toUInt8,
      ((v &&& 0xFF0000) >>> 16).toUInt8, ((v &&& 0xFF000000) >>> 24).toUInt8] ++ behind)
      before.length = v.toNat := by
  apply le32_of_bytes v.toNat_lt
  intro i hi
  rw [List.append_assoc, ← byteAt_drop, List.drop_left, byteAt_append_left _ (by simpa using hi)]
  obtain rfl | rfl | rfl | rfl : i = 0 ∨ i = 1 ∨ i = 2 ∨ i = 3 := by omega
  · have hlow := @toNat_masked 0xFF 0 (by decide) v
    rw [UInt32.shiftRight_zero] at hlow
    exact hlow
  · exact @toNat_masked 0xFF00 8 (by decide) v
  · exact @toNat_masked 0xFF0000 16 (by decide) v
  · exact @toNat_masked 0xFF000000 24 (by decide) v

/-- The first bytes of a block that was cleared before the data were copied to it. -/
theorem take_overwrite_replicate {data : List UInt8} {size n : ℕ} (hdata : data.length ≤ n)
    (hn : n ≤ size) : (overwrite (List.replicate size 0) 0 data).take n =
      data ++ List.replicate (n - data.length) 0 := by
  rw [overwrite, List.take_zero, List.nil_append, Nat.zero_add, List.drop_replicate,
    List.length_replicate, List.take_take, Nat.min_eq_left hn, List.take_append,
    List.take_of_length_le hdata, List.take_replicate, Nat.min_eq_left (by omega)]

/-- The bits of a flag byte that stand for one flag. -/
theorem and_one_or_two (flags : UInt8) : (flags &&& 1 = 0 ∨ flags &&& 1 = 1) ∧
    (flags &&& 2 = 0 ∨ flags &&& 2 = 2) := by
  have hall : ∀ n < 256, (UInt8.ofNat n &&& 1 = 0 ∨ UInt8.ofNat n &&& 1 = 1) ∧
      (UInt8.ofNat n &&& 2 = 0 ∨ UInt8.ofNat n &&& 2 = 2) := by decide +kernel
  have hflags := hall _ flags.toNat_lt
  rwa [UInt8.ofNat_toNat] at hflags

/-- The flags of an FD frame on the wire and in the frame received. -/
theorem fdFlags_echo {flags sent received : UInt8}
    (hsent : sent = canFrameFlagFdf |||
      (if flags &&& canfdBrs ≠ 0 then canFrameFlagBrs else 0) |||
        (if flags &&& canfdEsi ≠ 0 then canFrameFlagEsi else 0))
    (hreceived : received = (if sent &&& canFrameFlagBrs ≠ 0 then canfdBrs else 0) |||
      (if sent &&& canFrameFlagEsi ≠ 0 then canfdEsi else 0) ||| canfdFdf) :
    sent &&& canFrameFlagFdf ≠ 0 ∧ received &&& canfdBrs = flags &&& canfdBrs ∧
      received &&& canfdEsi = flags &&& canfdEsi := by
  obtain ⟨hbrs, hesi⟩ := and_one_or_two flags
  subst hreceived hsent
  rcases hbrs with hbrs | hbrs <;> rcases hesi with hesi | hesi <;>
    simp only [canfdBrs, canfdEsi, hbrs, hesi] <;> decide

theorem and_0x0F {dlc : UInt8} (h : dlc ≤ 15) : dlc &&& 0x0F = dlc := by
  have hle : dlc.toNat ≤ 15 := h
  apply UInt8.toNat_inj.mp
  rw [UInt8.toNat_and]
  change dlc.toNat &&& (2 ^ 4 - 1) = dlc.toNat
  rw [Nat.and_two_pow_sub_one_eq_mod, Nat.mod_eq_of_lt (by omega)]

/-- The data behind `before` and the header of a frame. -/
theorem slice_data {before header data behind : List UInt8} {off len : ℕ}
    (hoff : off = before.length + header.length) (hlen : len ≤ data.length) :
    slice (before ++ (header ++ data) ++ behind) off len = data.take len := by
  rw [slice, hoff, List.append_assoc, List.append_assoc, ← List.append_assoc before,
    ← List.length_append, List.drop_left, List.take_append_of_le_length hlen]

namespace CanNet

variable {skb : TxSkb} {ts behind : List UInt8} {netdev : Netdev}

theorem echoes_ep1Cf02a (hvalid : ep1Cf02a.Valid skb) (hdata : skb.len.toNat ≤ skb.data.length)
    (hts : ts.length = timestampSize) :
    Echoes skb (ep1Cf02a.rxSkb netdev (ts ++ ep1Cf02a.sendCf skb ++ behind)) := by
  generalize hpayload : ts ++ ep1Cf02a.sendCf skb ++ behind = payload
  have hlen : skb.len ≤ if skb.isCanfd then 64 else 8 := hvalid.1
  have hcut : (skb.data.take skb.len.toNat).length = skb.len.toNat := by
    rw [List.length_take, Nat.min_eq_left hdata]
  have hbyte : ∀ i < 6, byteAt payload (timestampSize + i) = byteAt (Ep1Cf02a.sendCf skb) i := by
    intro i hi
    rw [← hpayload, List.append_assoc, ← hts, ← byteAt_drop, List.drop_left]
    exact byteAt_append_left behind (by simp [sendCf, Ep1Cf02a.sendCf]; omega)
  have hdlc : byteAt payload 12 = if skb.isCanfd then canFdLen2dlc skb.len.toNat else skb.len :=
    hbyte 4 (by decide)
  have hflags : byteAt payload 13 = if skb.isCanfd then
      canFrameFlagFdf ||| (if skb.flags &&& canfdBrs ≠ 0 then canFrameFlagBrs else 0) |||
        (if skb.flags &&& canfdEsi ≠ 0 then canFrameFlagEsi else 0) else 0 :=
    hbyte 5 (by decide)
  have hid : le32 payload 8 = skb.canId.toNat := by
    have hcanId := le32_canId skb.canId ts (byteAt (Ep1Cf02a.sendCf skb) 4 ::
      byteAt (Ep1Cf02a.sendCf skb) 5 :: (Ep1Cf02a.sendCf skb).drop 6 ++ behind)
    rw [hts] at hcanId
    rw [← hpayload, ← hcanId]
    simp [sendCf, Ep1Cf02a.sendCf, timestampSize]
  have hslice : ∀ len ≤ 64, skb.len.toNat ≤ len → slice payload 14 len =
      skb.data.take skb.len.toNat ++ List.replicate (len - skb.len.toNat) 0 := by
    intro len hmax hmin
    have hpart := @take_overwrite_replicate (skb.data.take skb.len.toNat) 64 len
      (hcut.trans_le hmin) hmax
    rw [hcut] at hpart
    rw [← hpayload, ← hpart]
    exact slice_data (by rw [hts]; rfl) (by simpa using hmax)
  have hcopied : (ep1Cf02a.rxSkb netdev payload).data =
      slice payload 14 (ep1Cf02a.rxSkb netdev payload).len := rfl
  cases hfd : skb.isCanfd with
  | false =>
      rw [hfd] at hdlc hflags hlen
      simp only [if_neg Bool.false_ne_true] at hdlc hflags hlen
      have hle : skb.len.toNat ≤ 8 := hlen
      have hrxfd : (ep1Cf02a.rxSkb netdev payload).isCanfd = false := by
        simp [rxSkb_isCanfd, isFdPayload, hflags]
      have hrxlen : (ep1Cf02a.rxSkb netdev payload).len = skb.len.toNat := by
        rw [rxSkb_len, ← rxSkb_isCanfd ep1Cf02a netdev, hrxfd, payloadDlc, hdlc,
          and_0x0F (UInt8.le_trans hlen (by decide)), if_neg Bool.false_ne_true]
      refine ⟨hrxfd.trans hfd.symm, hid, ?_, ?_, fun _ => hrxlen, ?_, ?_⟩
      · simp [hfd]
      · simp [hfd]
      · simp [hfd]
      · rw [hcopied, hrxlen, hslice _ (by omega) (Nat.le_refl _)]
  | true =>
      rw [hfd] at hdlc hflags hlen
      simp only [if_true] at hdlc hflags hlen
      have hle : skb.len.toNat ≤ 64 := hlen
      obtain ⟨hcode, hvalidLen, hup, hleast⟩ := canFdDlc2len_canFdLen2dlc hle
      obtain ⟨hfdf, hbrs, hesi⟩ := fdFlags_echo hflags rfl
      have hrxfd : (ep1Cf02a.rxSkb netdev payload).isCanfd = true := by
        rw [rxSkb_isCanfd, isFdPayload]
        exact decide_eq_true hfdf
      have hrxlen : (ep1Cf02a.rxSkb netdev payload).len =
          canFdDlc2len (canFdLen2dlc skb.len.toNat).toNat := by
        rw [rxSkb_len, ← rxSkb_isCanfd ep1Cf02a netdev, hrxfd, if_pos rfl, payloadDlc, hdlc,
          and_0x0F hcode]
      have hrxflags : (ep1Cf02a.rxSkb netdev payload).flags =
          (if byteAt payload 13 &&& canFrameFlagBrs ≠ 0 then canfdBrs else 0) |||
            (if byteAt payload 13 &&& canFrameFlagEsi ≠ 0 then canfdEsi else 0) ||| canfdFdf :=
        if_pos hrxfd
      refine ⟨hrxfd.trans hfd.symm, hid, fun _ => ?_, fun _ => ?_, ?_, fun _ => ?_, ?_⟩
      · rw [hrxflags, hbrs]
      · rw [hrxflags, hesi]
      · simp [hfd]
      · rw [hrxlen]
        exact ⟨⟨hvalidLen, hup⟩, fun valid hmem => hleast valid hmem.1 hmem.2⟩
      · rw [hcopied, hrxlen, hslice _ (canFdDlc2len_le _) hup]

theorem echoes_apCt2a (hvalid : apCt2a.Valid skb) (hdata : skb.len.toNat ≤ skb.data.length)
    (hts : ts.length = timestampSize) :
    Echoes skb (apCt2a.rxSkb netdev (ts ++ apCt2a.sendCf skb ++ behind)) := by
  generalize hpayload : ts ++ apCt2a.sendCf skb ++ behind = payload
  have hfd : skb.isCanfd = false := hvalid.2 rfl
  have hlen : skb.len ≤ 8 := by
    have := hvalid.1
    rwa [hfd, if_neg Bool.false_ne_true] at this
  have hle : skb.len.toNat ≤ 8 := hlen
  have hcut : (skb.data.take skb.len.toNat).length = skb.len.toNat := by
    rw [List.length_take, Nat.min_eq_left hdata]
  have hdlc : byteAt payload 12 = skb.len := by
    rw [← hpayload, List.append_assoc, show 12 = ts.length + 4 by rw [hts]; rfl, ← byteAt_drop,
      List.drop_left]
    rfl
  have hid : le32 payload 8 = skb.canId.toNat := by
    have hcanId := le32_canId skb.canId ts
      (skb.len :: (ApCt2a.sendCf skb).drop 5 ++ behind)
    rw [hts] at hcanId
    rw [← hpayload, ← hcanId]
    simp [sendCf, ApCt2a.sendCf, timestampSize]
  have hrxlen : (apCt2a.rxSkb netdev payload).len = skb.len.toNat := by
    rw [rxSkb_len, isFdPayload, if_neg Bool.false_ne_true, payloadDlc, hdlc,
      and_0x0F (UInt8.le_trans hlen (by decide))]
  have hslice : slice payload 13 skb.len.toNat = skb.data.take skb.len.toNat := by
    have hpart := @take_overwrite_replicate (skb.data.take skb.len.toNat) 8 skb.len.toNat
      (Nat.le_of_eq hcut) hle
    rw [hcut, Nat.sub_self, List.replicate_zero, List.append_nil] at hpart
    rw [← hpayload]
    exact (slice_data (by rw [hts]; rfl) (by simpa using hle)).trans hpart
  have hcopied : (apCt2a.rxSkb netdev payload).data =
      slice payload 13 (apCt2a.rxSkb netdev payload).len := rfl
  refine ⟨hfd.symm, hid, ?_, ?_, fun _ => hrxlen, ?_, ?_⟩
  · simp [hfd]
  · simp [hfd]
  · simp [hfd]
  · rw [hcopied, hrxlen, hslice, Nat.sub_self, List.replicate_zero, List.append_nil]

/-- A frame comes back from the payload that is sent for it, behind any timestamp. -/
theorem rxSkb_sendCf (net : CanNet) (hvalid : net.Valid skb)
    (hdata : skb.len.toNat ≤ skb.data.length) (netdev : Netdev) (hts : ts.length = timestampSize)
    (behind : List UInt8) : Echoes skb (net.rxSkb netdev (ts ++ net.sendCf skb ++ behind)) := by
  cases net with
  | apCt2a => exact echoes_apCt2a hvalid hdata hts
  | ep1Cf02a => exact echoes_ep1Cf02a hvalid hdata hts

/-- Nine bytes come back as twelve. -/
theorem rxSkb_sendCf_nine : Echoes ⟨true, 0x9ABCDEF0, 9, 0x03, List.replicate 9 0x55⟩
    (ep1Cf02a.rxSkb ⟨true, ⟨0, 0⟩, 0, 0, []⟩ (List.replicate 8 0 ++
      ep1Cf02a.sendCf ⟨true, 0x9ABCDEF0, 9, 0x03, List.replicate 9 0x55⟩ ++ [])) :=
  rxSkb_sendCf ep1Cf02a (by decide) (by decide) _ (by decide) []

end CanNet

end AptUsbtrx
