import AptUsbtrx.Model.ApCt2a
import AptUsbtrx.Model.Ep1Ag08a
import AptUsbtrx.Verification.Command.Ep1Cf02a
import AptUsbtrx.Verification.Msg.Words
import AptUsbtrx.Verification.Stale.Locality

/-! # What the response decoders read -/

namespace AptUsbtrx

open Memory Message

/-! ### Little-endian numbers -/

namespace Ep1Cf02a

theorem testBit_byteAt_of_le (data : List UInt8) (n : ℕ) {i : ℕ} (hi : 8 ≤ i) :
    (byteAt data n).toNat.testBit i = false :=
  Nat.testBit_lt_two_pow ((byteAt data n).toNat_lt.trans_le (Nat.pow_le_pow_right (by omega) hi))

theorem testBit_le16 (data : List UInt8) (n : ℕ) :
    (le16 data n).testBit 8 = (byteAt data (n + 1)).toNat.testBit 0 := by
  rw [le16, Nat.testBit_or, testBit_byteAt_of_le data n le_rfl, Nat.testBit_shiftLeft]
  simp

theorem testBit_le16_of_le (data : List UInt8) (n : ℕ) {i : ℕ} (hi : 16 ≤ i) :
    (le16 data n).testBit i = false := by
  rw [le16, Nat.testBit_or, testBit_byteAt_of_le data n (by omega), Nat.testBit_shiftLeft,
    testBit_byteAt_of_le data (n + 1) (by omega)]
  simp

theorem testBit_le32 (data : List UInt8) (n i : ℕ) :
    (le32 data n).testBit (24 + i) = (byteAt data (n + 3)).toNat.testBit i := by
  rw [le32, Nat.testBit_or, Nat.testBit_or, testBit_le16_of_le data n (by omega),
    Nat.testBit_shiftLeft, Nat.testBit_shiftLeft, testBit_byteAt_of_le data (n + 2) (by omega)]
  simp

theorem testBit_le32_of_le (data : List UInt8) (n : ℕ) {i : ℕ} (hi : 32 ≤ i) :
    (le32 data n).testBit i = false := by
  rw [le32, Nat.testBit_or, Nat.testBit_or, testBit_le16_of_le data n (by omega),
    Nat.testBit_shiftLeft, Nat.testBit_shiftLeft, testBit_byteAt_of_le data (n + 2) (by omega),
    testBit_byteAt_of_le data (n + 3) (by omega)]
  simp

theorem testBit_le64 (data : List UInt8) (n : ℕ) :
    (le64 data n).testBit 56 = (byteAt data (n + 7)).toNat.testBit 0 := by
  rw [le64, Nat.testBit_or, testBit_le32_of_le data n (by omega), Nat.testBit_shiftLeft,
    show 56 - 32 = 24 + 0 by rfl, testBit_le32]
  simp

theorem eq_of_bmod_eq {m x y : ℕ} (hx : x < m) (hy : y < m)
    (h : (x : ℤ).bmod m = (y : ℤ).bmod m) : x = y := by
  have hmod := congrArg (· % (m : ℤ)) h
  simp only [Int.bmod_emod] at hmod
  rw [Int.emod_eq_of_lt (Int.natCast_nonneg _) (Int.ofNat_lt.mpr hx),
    Int.emod_eq_of_lt (Int.natCast_nonneg _) (Int.ofNat_lt.mpr hy)] at hmod
  exact Int.ofNat.inj hmod

theorem le32_eq_of_le32Signed {data data' : List UInt8} {n : ℕ}
    (h : le32Signed data n = le32Signed data' n) : le32 data n = le32 data' n :=
  eq_of_bmod_eq (le32_lt data n) (le32_lt data' n) h

theorem le16_ne {xs ys : List UInt8} {n : ℕ} (h0 : byteAt xs (n + 1) = 0)
    (h1 : byteAt ys (n + 1) = 1) : le16 xs n ≠ le16 ys n := by
  intro h
  have hbit := congrArg (Nat.testBit · 8) h
  simp [testBit_le16, h0, h1] at hbit

theorem le32_ne {xs ys : List UInt8} {n : ℕ} (h0 : byteAt xs (n + 3) = 0)
    (h1 : byteAt ys (n + 3) = 1) : le32 xs n ≠ le32 ys n := by
  intro h
  have hbit := congrArg (Nat.testBit · (24 + 0)) h
  simp only [testBit_le32, h0, h1] at hbit
  exact absurd hbit (by decide)

theorem le64_ne {xs ys : List UInt8} {n : ℕ} (h0 : byteAt xs (n + 7) = 0)
    (h1 : byteAt ys (n + 7) = 1) : le64 xs n ≠ le64 ys n := by
  intro h
  have hbit := congrArg (Nat.testBit · 56) h
  simp [testBit_le64, h0, h1] at hbit

theorem byteAt_slice {xs : List UInt8} {off len i : ℕ} (hi : i < len) :
    byteAt (slice xs off len) i = byteAt xs (off + i) := by
  rw [byteAt, List.getD_eq_getElem?_getD, getElem?_slice, if_pos hi, byteAt,
    List.getD_eq_getElem?_getD]

theorem slice_ne {xs ys : List UInt8} {off len : ℕ} (h0 : byteAt xs (off + len) = 0)
    (h1 : byteAt ys (off + len) = 1) : slice xs off (len + 1) ≠ slice ys off (len + 1) := by
  intro h
  have hbyte := congrArg (byteAt · len) h
  simp [byteAt_slice, h0, h1] at hbyte

theorem byte_ne {γ : Type} {xs ys : List UInt8} {n : ℕ} (f : UInt8 → γ) (h0 : byteAt xs n = 0)
    (h1 : byteAt ys n = 1) (hf : f 0 ≠ f 1) : f (byteAt xs n) ≠ f (byteAt ys n) := by
  rw [h0, h1]
  exact hf

theorem parseResponseGetBitTiming_ne {xs ys : List UInt8} (h0 : byteAt xs 9 = 0)
    (h1 : byteAt ys 9 = 1) : parseResponseGetBitTiming xs ≠ parseResponseGetBitTiming ys := by
  intro h
  have hbrp : (le16 xs 8 : ℤ) = le16 ys 8 := congrArg BitTiming.brp h
  exact le16_ne h0 h1 (Int.ofNat.inj hbrp)

/-- The last byte of the documented length matters to every decoder. -/
theorem parseResp_ne (cmd : GetCmd) {xs ys : List UInt8}
    (h0 : byteAt xs (cmd.command.respDataSize - 5) = 0)
    (h1 : byteAt ys (cmd.command.respDataSize - 5) = 1) : cmd.parseResp xs ≠ cmd.parseResp ys := by
  cases cmd with
  | silentMode => exact byte_ne (fun b => b &&& 0x01 == 0) h0 h1 (by decide)
  | fdMode | isoMode => exact byte_ne (fun b => b &&& 0x01 != 0) h0 h1 (by decide)
  | txRxControl | storeEnable => exact byte_ne (fun b => b == 0x01) h0 h1 (by decide)
  | bitTiming | dataBitTiming => exact parseResponseGetBitTiming_ne h0 h1
  | canClock => exact fun h => le32_ne h0 h1 (le32_eq_of_le32Signed h)
  | deviceTimestampResetTime => exact fun h => le32_ne h0 h1 (congrArg Timestamp.tsUsec h)
  | rtcTime => exact fun h => le32_ne h0 h1 (congrArg RtcTime.microsecond h)
  | currentStoreDataState =>
      intro h
      have hid : slice xs 1 32 = slice ys 1 32 := congrArg CurrentStoreDataState.id h
      exact slice_ne h0 h1 hid
  | storeDataIdListCount | storeMaxDuration => exact le32_ne h0 h1
  | storeDataId index =>
      intro h
      have hid : slice xs 0 32 = slice ys 0 32 := h
      exact slice_ne h0 h1 hid
  | storeDataMeta id => exact fun h => le64_ne h0 h1 (congrArg StoreDataMeta.canFrameCount h)
  | storeDataRxControl =>
      exact fun h => le64_ne h0 h1 (congrArg StoreDataRxControl.canFrameCountPerRequest h)
  | capabilities => exact le64_ne h0 h1
  | canStatistics =>
      intro h
      have hreserved : slice xs 8 64 = slice ys 8 64 := congrArg CanStatistics.reserved2 h
      exact slice_ne h0 h1 hreserved

end Ep1Cf02a

theorem Message.AgreeOn.le16 {k n : ℕ} {msg msg' : Msg} (h : AgreeOn k msg msg')
    (hn : n + 2 ≤ k) : Ep1Cf02a.le16 msg.payload n = Ep1Cf02a.le16 msg'.payload n := by
  rw [← Ep1Cf02a.le16_take hn, h.take, Ep1Cf02a.le16_take hn]

theorem Message.AgreeOn.le32 {k n : ℕ} {msg msg' : Msg} (h : AgreeOn k msg msg')
    (hn : n + 4 ≤ k) : Ep1Cf02a.le32 msg.payload n = Ep1Cf02a.le32 msg'.payload n := by
  rw [← Ep1Cf02a.le32_take hn, h.take, Ep1Cf02a.le32_take hn]

theorem Message.AgreeOn.le32Signed {k n : ℕ} {msg msg' : Msg} (h : AgreeOn k msg msg')
    (hn : n + 4 ≤ k) :
    Ep1Cf02a.le32Signed msg.payload n = Ep1Cf02a.le32Signed msg'.payload n := by
  rw [← Ep1Cf02a.le32Signed_take hn, h.take, Ep1Cf02a.le32Signed_take hn]

/-! ### The decoders -/

/-- The decoders of the driver. -/
inductive Decoder where
  | getDeviceId
  | getSerialNo
  | getFwVersion
  | getFwVersionRevision
  | ack
  | notifyBufferStatus
  | ct2aGetStatus
  | ct2aCanSummary
  | ch02aGetStatus
  | ch02aGetBitTiming
  | ag08aGetStatus
  | cf02aGet (cmd : Ep1Cf02a.GetCmd)

namespace Decoder

/-- The verdict and the outputs of the decoder. -/
def Output : Decoder → Type
  | getDeviceId => RespGetDeviceId
  | getSerialNo => RespGetSerialNo
  | getFwVersion => ℕ × ℕ
  | getFwVersionRevision => ℕ × ℕ × ℕ
  | ack => Result × UInt8
  | notifyBufferStatus => Result × ℕ
  | ct2aGetStatus => Option ApCt2a.RespGetStatus
  | ct2aCanSummary => UInt32 × ApCt2a.CanFrame
  | ch02aGetStatus => Option Ep1Ch02a.RespGetStatus
  | ch02aGetBitTiming => Ep1Ch02a.RespGetBitTiming
  | ag08aGetStatus => Option Ep1Ag08a.RespGetStatus
  | cf02aGet cmd => cmd.Output

/-- The decoder called with `msg->payload` and `msg->payload_size`. -/
def decode : (d : Decoder) → Msg → d.Output
  | getDeviceId, msg => msgParseResponseGetDeviceId msg.payload
  | getSerialNo, msg => msgParseResponseGetSerialNo msg.payload
  | getFwVersion, msg => msgParseResponseGetFwVersion msg.payload
  | getFwVersionRevision, msg => msgParseResponseGetFwVersionRevision msg.payload
  | ack, msg => msgParseAck msg.payload
  | notifyBufferStatus, msg => msgParseNotifyBufferStatus msg.payload
  | ct2aGetStatus, msg => ApCt2a.parseResponseGetStatus msg.payload
  | ct2aCanSummary, msg => ApCt2a.parseNotifyRecvCanSummary msg.payload
  | ch02aGetStatus, msg => Ep1Ch02a.parseResponseGetStatus msg.payload
  | ch02aGetBitTiming, msg => Ep1Ch02a.parseResponseGetBitTiming msg.payload
  | ag08aGetStatus, msg => Ep1Ag08a.parseResponseGetStatus msg.payload msg.payloadSize.toNat
  | cf02aGet cmd, msg => cmd.parseResp msg.payload

/-- How many payload bytes the decoder reads. The status of the AP-CT2A ends with a baudrate
mode that is not known; that of the EP1-AG08A is read at its documented size only. -/
def needs (d : Decoder) (m : Message) : ℕ :=
  match d with
  | getDeviceId => 5
  | getSerialNo => 15
  | getFwVersion => 2
  | getFwVersionRevision => 3
  | ack => 1
  | notifyBufferStatus => 1
  | ct2aGetStatus =>
      if (ApCt2a.convertBaudrateValue (byteAt m.payload 0 &&& 0x1f).toNat).isSome then 9 else 1
  | ct2aCanSummary => 17
  | ch02aGetStatus => 1
  | ch02aGetBitTiming => 10
  | ag08aGetStatus => if m.payload.length = 14 then 14 else 0
  | cf02aGet cmd => cmd.command.respDataSize - 4

end Decoder

section

variable (m : Message)

theorem reads_getDeviceId : m.Reads Decoder.getDeviceId.decode 5 := by
  refine reads_of_lastByte (show 4 < maxPayload by decide) ?_ ?_
  · intro msg msg' h
    simp only [Decoder.decode, msgParseResponseGetDeviceId]
    rw [h.slice (by omega), h.byteAt (by omega)]
  · intro msg msg' h0 h1 h
    have hchannel := congrArg RespGetDeviceId.channel h
    simp only [Decoder.decode, msgParseResponseGetDeviceId, h0, h1] at hchannel
    exact absurd hchannel (by decide)

theorem reads_getSerialNo : m.Reads Decoder.getSerialNo.decode 15 := by
  refine reads_of_lastByte (show 14 < maxPayload by decide) ?_ ?_
  · intro msg msg' h
    simp only [Decoder.decode, msgParseResponseGetSerialNo]
    rw [h.slice (by omega), h.byteAt (by omega)]
  · intro msg msg' h0 h1 h
    have hchannel := congrArg RespGetSerialNo.channel h
    simp only [Decoder.decode, msgParseResponseGetSerialNo, h0, h1] at hchannel
    exact absurd hchannel (by decide)

theorem reads_getFwVersion : m.Reads Decoder.getFwVersion.decode 2 := by
  refine reads_of_lastByte (show 1 < maxPayload by decide) ?_ ?_
  · intro msg msg' h
    simp only [Decoder.decode, msgParseResponseGetFwVersion]
    rw [h.byteAt (by omega), h.byteAt (by omega)]
  · intro msg msg' h0 h1 h
    have hminor := congrArg Prod.snd h
    simp only [Decoder.decode, msgParseResponseGetFwVersion, h0, h1] at hminor
    exact absurd hminor (by decide)

theorem reads_getFwVersionRevision : m.Reads Decoder.getFwVersionRevision.decode 3 := by
  refine reads_of_lastByte (show 2 < maxPayload by decide) ?_ ?_
  · intro msg msg' h
    simp only [Decoder.decode, msgParseResponseGetFwVersionRevision]
    rw [h.byteAt (by omega), h.byteAt (by omega), h.byteAt (by omega)]
  · intro msg msg' h0 h1 h
    have hrevision := congrArg (fun v : ℕ × ℕ × ℕ => v.2.2) h
    simp only [Decoder.decode, msgParseResponseGetFwVersionRevision, h0, h1] at hrevision
    exact absurd hrevision (by decide)

theorem reads_ack : m.Reads Decoder.ack.decode 1 := by
  refine reads_of_lastByte (show 0 < maxPayload by decide) ?_ ?_
  · intro msg msg' h
    simp only [Decoder.decode, msgParseAck]
    rw [h.byteAt (by omega)]
  · intro msg msg' h0 h1 h
    have hid := congrArg Prod.snd h
    simp only [Decoder.decode, msgParseAck, h0, h1] at hid
    exact absurd hid (by decide)

theorem reads_notifyBufferStatus : m.Reads Decoder.notifyBufferStatus.decode 1 := by
  refine reads_of_lastByte (show 0 < maxPayload by decide) ?_ ?_
  · intro msg msg' h
    simp only [Decoder.decode, msgParseNotifyBufferStatus]
    rw [h.byteAt (by omega)]
  · intro msg msg' h0 h1 h
    have hrate := congrArg Prod.snd h
    simp only [Decoder.decode, msgParseNotifyBufferStatus, h0, h1] at hrate
    exact absurd hrate (by decide)

theorem reads_ct2aCanSummary : m.Reads Decoder.ct2aCanSummary.decode 17 := by
  refine reads_of_lastByte (show 16 < maxPayload by decide) ?_ ?_
  · intro msg msg' h
    simp only [Decoder.decode, ApCt2a.parseNotifyRecvCanSummary]
    rw [h.le32 (by omega), h.le32 (by omega), h.byteAt (by omega), h.slice (by omega)]
  · intro msg msg' h0 h1 h
    have hdata : slice msg.payload 9 8 = slice msg'.payload 9 8 :=
      congrArg (fun v : UInt32 × ApCt2a.CanFrame => v.2.data) h
    exact Ep1Cf02a.slice_ne h0 h1 hdata

theorem reads_ch02aGetStatus : m.Reads Decoder.ch02aGetStatus.decode 1 := by
  refine reads_of_lastByte (show 0 < maxPayload by decide) ?_ ?_
  · intro msg msg' h
    simp only [Decoder.decode, Ep1Ch02a.parseResponseGetStatus, ApCt2a.bitAt]
    rw [h.byteAt (by omega)]
  · intro msg msg' h0 h1 h
    have hsome := congrArg Option.isSome h
    simp only [Decoder.decode, Ep1Ch02a.parseResponseGetStatus, Option.isSome_map, h0, h1] at hsome
    exact absurd hsome (by decide)

theorem reads_ch02aGetBitTiming : m.Reads Decoder.ch02aGetBitTiming.decode 10 := by
  refine reads_of_lastByte (show 9 < maxPayload by decide) ?_ ?_
  · intro msg msg' h
    simp only [Decoder.decode, Ep1Ch02a.parseResponseGetBitTiming]
    rw [h.le32Signed (by omega), h.byteAt (by omega), h.byteAt (by omega), h.byteAt (by omega),
      h.byteAt (by omega), h.le16 (by omega)]
  · intro msg msg' h0 h1 h
    exact Ep1Cf02a.le16_ne h0 h1 (congrArg Ep1Ch02a.RespGetBitTiming.brp h)

theorem reads_cf02aGet (cmd : Ep1Cf02a.GetCmd) :
    m.Reads (Decoder.cf02aGet cmd).decode (cmd.command.respDataSize - 4) := by
  have hsize : 5 ≤ cmd.command.respDataSize ∧ cmd.command.respDataSize ≤ 82 := by
    cases cmd <;> simp [Ep1Cf02a.GetCmd.command, Ep1Cf02a.GetCmd.getCommon]
  rw [show cmd.command.respDataSize - 4 = cmd.command.respDataSize - 5 + 1 by omega]
  refine reads_of_lastByte (show cmd.command.respDataSize - 5 < 78 by omega) ?_ ?_
  · intro msg msg' h
    exact h.congr fun data => Ep1Cf02a.parseResp_take cmd (by omega)
  · intro msg msg' h0 h1
    exact Ep1Cf02a.parseResp_ne cmd h0 h1

/-- The decoder ends with a baudrate mode that is not known. -/
theorem ct2aGetStatus_eq_none {m : Message} {msg : Msg} (h : msg.Holds m) (hcovers : m.Covers 1)
    (hmode : (ApCt2a.convertBaudrateValue (byteAt m.payload 0 &&& 0x1f).toNat).isSome = false) :
    Decoder.ct2aGetStatus.decode msg = none := by
  simp only [Decoder.decode, ApCt2a.parseResponseGetStatus, h.byteAt hcovers]
  rw [Option.isSome_eq_false_iff.mp hmode |> Option.isNone_iff_eq_none.mp, Option.map_none]

/-- The decoder of the AP-CT2A looks at nine bytes. -/
theorem ct2aGetStatus_take (data : List UInt8) :
    ApCt2a.parseResponseGetStatus (data.take 9) = ApCt2a.parseResponseGetStatus data := by
  have hbit : ∀ n bit, n < 9 → ApCt2a.bitAt (data.take 9) n bit = ApCt2a.bitAt data n bit :=
    fun n bit hn => congrArg (fun b : UInt8 => b.toNat.testBit bit) (byteAt_take hn)
  have htrigger : ∀ n, n + 1 < 9 →
      ApCt2a.parseTrigger (data.take 9) n = ApCt2a.parseTrigger data n := by
    intro n hn
    rw [ApCt2a.parseTrigger, ApCt2a.parseTrigger, hbit _ _ hn, hbit _ _ hn,
      byteAt_take (by omega), byteAt_take hn]
  simp (disch := omega) only [ApCt2a.parseResponseGetStatus, hbit, htrigger, byteAt_take,
    Ep1Cf02a.le16_take]

theorem reads_ct2aGetStatus :
    m.Reads Decoder.ct2aGetStatus.decode (Decoder.ct2aGetStatus.needs m) := by
  rw [Decoder.needs]
  cases hmode : (ApCt2a.convertBaudrateValue (byteAt m.payload 0 &&& 0x1f).toNat).isSome with
  | true =>
      rw [if_pos rfl]
      refine reads_of_last ?_ ?_
      · intro msg msg' h
        simp only [Decoder.decode]
        exact h.congr ct2aGetStatus_take
      · intro hcovers
        refine ⟨m.paddedAt 8 0, m.paddedAt 8 1, m.holds_paddedAt 8 0, m.holds_paddedAt 8 1, ?_⟩
        intro h
        have hinterval := congrArg (Option.map fun status => status.trigger.pulseInterval) h
        obtain ⟨baudrate, hbaudrate⟩ := Option.isSome_iff_exists.mp hmode
        simp only [Decoder.decode, ApCt2a.parseResponseGetStatus,
          m.byteAt_paddedAt_of_ne _ (show 0 < maxPayload by decide) (show 0 ≠ 8 by decide),
          hbaudrate, Option.map_some, Option.some.injEq] at hinterval
        exact Ep1Cf02a.le16_ne (byteAt_paddedAt_self 0 (by decide) hcovers)
          (byteAt_paddedAt_self 1 (by decide) hcovers) hinterval
  | false =>
      have hcovers : m.Covers 1 := by
        by_contra h
        rw [covers_iff] at h
        rw [byteAt_of_length_le (by omega)] at hmode
        exact absurd hmode (by decide)
      rw [if_neg Bool.false_ne_true]
      refine ⟨fun _ => hcovers, ?_⟩
      intro _ msg msg' hmsg hmsg'
      rw [ct2aGetStatus_eq_none hmsg hcovers hmode, ct2aGetStatus_eq_none hmsg' hcovers hmode]

/-- The decoder of the EP1-AG08A looks at 14 bytes. -/
theorem ag08aGetStatus_take (data : List UInt8) (n : ℕ) :
    Ep1Ag08a.parseResponseGetStatus (data.take 14) n = Ep1Ag08a.parseResponseGetStatus data n := by
  have hch : ∀ ch : Ep1Ag08a.Ch, byteAt (data.take 14) (1 + ch) = byteAt data (1 + ch) :=
    fun ch => byteAt_take (by omega)
  simp (disch := omega) only [Ep1Ag08a.parseResponseGetStatus, hch, byteAt_take]

theorem ag08aGetStatus_congr {msg msg' : Msg} (h : AgreeOn 14 msg msg') :
    Decoder.ag08aGetStatus.decode msg = Decoder.ag08aGetStatus.decode msg' := by
  simp only [Decoder.decode]
  rw [← ag08aGetStatus_take msg.payload, h.take, h.size, ag08aGetStatus_take]

theorem reads_ag08aGetStatus :
    m.Reads Decoder.ag08aGetStatus.decode (Decoder.ag08aGetStatus.needs m) := by
  rw [Decoder.needs]
  by_cases hsize : m.payload.length = 14
  · rw [if_pos hsize]
    have hcovers : m.Covers 14 := hsize.ge
    refine ⟨fun _ => hcovers, ?_⟩
    intro _ msg msg' hmsg hmsg'
    exact ag08aGetStatus_congr (agreeOn_of_holds hcovers hmsg hmsg')
  · rw [if_neg hsize]
    have hnone : ∀ msg : Msg, msg.Holds m → Decoder.ag08aGetStatus.decode msg = none := by
      intro msg hmsg
      have hne : msg.payloadSize.toNat ≠ msgLengthToPayload Ep1Ag08a.cmdLengthResponseGetStatus := by
        rw [hmsg.size, m.toNat_payloadSize]
        exact hsize
      simp only [Decoder.decode, Ep1Ag08a.parseResponseGetStatus]
      rw [if_pos hne]
    refine ⟨fun _ => Nat.zero_le _, ?_⟩
    intro _ msg msg' hmsg hmsg'
    rw [hnone msg hmsg, hnone msg' hmsg']

/-- Every decoder reads the first `needs` payload bytes of the message. -/
theorem Decoder.reads (d : Decoder) : m.Reads d.decode (d.needs m) := by
  cases d with
  | getDeviceId => exact reads_getDeviceId m
  | getSerialNo => exact reads_getSerialNo m
  | getFwVersion => exact reads_getFwVersion m
  | getFwVersionRevision => exact reads_getFwVersionRevision m
  | ack => exact reads_ack m
  | notifyBufferStatus => exact reads_notifyBufferStatus m
  | ct2aGetStatus => exact reads_ct2aGetStatus m
  | ct2aCanSummary => exact reads_ct2aCanSummary m
  | ch02aGetStatus => exact reads_ch02aGetStatus m
  | ch02aGetBitTiming => exact reads_ch02aGetBitTiming m
  | ag08aGetStatus => exact reads_ag08aGetStatus m
  | cf02aGet cmd => exact reads_cf02aGet m cmd

end

end AptUsbtrx
