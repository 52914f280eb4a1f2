import AptUsbtrx.Verification.Stale.ApCt2a

/-! # Stale bytes and received messages

When the effect of a received frame is that of its message, whatever the message structure
held before. -/

namespace AptUsbtrx

open Memory Message Ep1Cf02a

/-! ### EP1-CH02A -/

namespace Ep1Ch02a

/-- How many payload bytes `ep1_ch02a_dispatch_msg` needs. -/
def dispatchNeeds (env : ApCt2a.KernelEnv) (dev : Dev ApCt2a.UniqueDataCan) (m : Message) : ℕ :=
  if m.id = cmdResponseGetBitTiming then 0 else ApCt2a.dispatchNeeds env dev m

theorem reads_dispatchMsg (env : ApCt2a.KernelEnv) {dev : Dev ApCt2a.UniqueDataCan}
    (hw : dev.rxData.Wf) (data : List UInt8) (m : Message) :
    m.Reads (fun msg => (dispatchMsg env dev data msg).1) (dispatchNeeds env dev m) := by
  rw [dispatchNeeds]
  by_cases hid : m.id = cmdResponseGetBitTiming
  · rw [if_pos hid]
    refine Determines.reads ?_
    intro msg msg' h h'
    have hcomplete := determines_complete m dev.rxComplete data msg msg' h h'
    simp only at hcomplete
    simp only [dispatchMsg, h.id, h'.id, if_pos hid, hcomplete]
  · rw [if_neg hid]
    refine (ApCt2a.reads_dispatchMsg env hw data m).congr ?_
    intro msg h
    rw [← h.id] at hid
    simp only [dispatchMsg, if_neg hid]

theorem determines_dispatchMsg_snd (env : ApCt2a.KernelEnv) (dev : Dev ApCt2a.UniqueDataCan)
    (data : List UInt8) (m : Message) :
    m.Determines fun msg => (dispatchMsg env dev data msg).2 := by
  intro msg msg' h h'
  have hinherited := ApCt2a.determines_dispatchMsg_snd env dev data m msg msg' h h'
  simp only at hinherited
  simp only [dispatchMsg, h.id, h'.id]
  split_ifs
  · rfl
  · rfl
  · exact hinherited

end Ep1Ch02a

/-! ### EP1-AG08A -/

namespace Ep1Ag08a

/-- How many payload bytes `ep1_ag08a_dispatch_msg` needs. -/
def dispatchNeeds (dev : Dev UniqueData) (m : Message) : ℕ :=
  if m.id = cmdNotifyAnalogInput ∧ dev.uniqueData.ifType = .iio ∧
      dev.uniqueData.iio.hwTimestamp = true then 8
  else 0

theorem determines_iioDataCopy (m : Message) (priv : IioData) :
    m.Determines fun msg => iioDataCopy msg priv := by
  intro msg msg' h h'
  have hagree := agreeOn_of_holds m.covers_self h h'
  simp only [iioDataCopy, h.size, h'.size, m.toNat_payloadSize]
  by_cases hoffset : m.payload.length < payloadDataOffset
  · rw [if_pos hoffset, if_pos hoffset]
  · rw [hagree.slice (by omega)]

theorem iioDataCopy_frame (msg : Msg) (priv : IioData) :
    (iioDataCopy msg priv).hwTimestamp = priv.hwTimestamp ∧
      (iioDataCopy msg priv).pushed = priv.pushed := by
  simp only [iioDataCopy]
  split_ifs <;> exact ⟨rfl, rfl⟩

/-- The time stamp of a notification, in nanoseconds. -/
def hwTimeNs (payload : List UInt8) : ℤ :=
  le32 payload 0 * 1000000000 + le32 payload 4 * 1000

/-- The device after samples for the IIO buffer. -/
theorem dispatchMsg_iio {dev : Dev UniqueData} {msg : Msg} (timeNs : ℤ) (data : List UInt8)
    (hid : msg.id = cmdNotifyAnalogInput) (htype : dev.uniqueData.ifType = .iio) :
    (dispatchMsg timeNs dev data msg).1 =
      { dev with uniqueData := { dev.uniqueData with
        iio := { iioDataCopy msg dev.uniqueData.iio with
          pushed := dev.uniqueData.iio.pushed ++
            [((iioDataCopy msg dev.uniqueData.iio).buffer,
              if dev.uniqueData.iio.hwTimestamp then hwTimeNs msg.payload else timeNs)] } } } := by
  simp [dispatchMsg, hid, htype, hwTimeNs, iioDataCopy_frame]

theorem reads_dispatchMsg_iio (timeNs : ℤ) {dev : Dev UniqueData} (data : List UInt8)
    {m : Message} (hid : m.id = cmdNotifyAnalogInput) (htype : dev.uniqueData.ifType = .iio) :
    m.Reads (fun msg => (dispatchMsg timeNs dev data msg).1)
      (if dev.uniqueData.iio.hwTimestamp = true then 8 else 0) := by
  have hcopy := determines_iioDataCopy m dev.uniqueData.iio
  cases htimestamp : dev.uniqueData.iio.hwTimestamp with
  | false =>
      refine Determines.reads ?_
      intro msg msg' h h'
      have hsame := hcopy msg msg' h h'
      simp only at hsame
      simp only [dispatchMsg_iio timeNs data (h.id.trans hid) htype,
        dispatchMsg_iio timeNs data (h'.id.trans hid) htype, hsame, htimestamp, Bool.false_eq_true,
        if_false]
  | true =>
      rw [if_pos rfl]
      refine reads_intro ?_ ?_
      · intro hcovers msg msg' h h'
        have hsame := hcopy msg msg' h h'
        have hagree := agreeOn_of_holds hcovers h h'
        simp only at hsame
        simp only [dispatchMsg_iio timeNs data (h.id.trans hid) htype,
          dispatchMsg_iio timeNs data (h'.id.trans hid) htype, hsame, hwTimeNs]
        rw [hagree.le32 (by omega), hagree.le32 (by omega)]
      · intro hcovers
        refine ⟨_, _, m.holds_paddedAt 7 0, m.holds_paddedAt 7 1, ?_⟩
        intro heq
        rw [dispatchMsg_iio timeNs data hid htype, dispatchMsg_iio timeNs data hid htype] at heq
        have hpushed := List.append_cancel_left
          (congrArg (fun dev => dev.uniqueData.iio.pushed) heq)
        simp only [htimestamp, if_true, hwTimeNs, List.cons.injEq, Prod.mk.injEq, and_true]
          at hpushed
        have hsec : le32 (m.paddedAt 7 0).payload 0 = le32 (m.paddedAt 7 1).payload 0 := by
          simp (disch := decide) only [le32, le16, m.byteAt_paddedAt_of_ne]
        have husec : le32 (m.paddedAt 7 0).payload 4 ≠ le32 (m.paddedAt 7 1).payload 4 :=
          le32_ne (byteAt_paddedAt_self 0 (show 7 < maxPayload by decide) hcovers)
            (byteAt_paddedAt_self 1 (show 7 < maxPayload by decide) hcovers)
        omega

theorem determines_dispatchMsg_snd (timeNs : ℤ) (dev : Dev UniqueData) (data : List UInt8)
    (m : Message) : m.Determines fun msg => (dispatchMsg timeNs dev data msg).2 := by
  have hverdict : ∀ msg : Msg, (dispatchMsg timeNs dev data msg).2 =
      if msg.id = cmdNotifyAnalogInput ∨ msg.id = cmdResponseGetStatus then .success
      else .failure := by
    intro msg
    simp only [dispatchMsg]
    split_ifs <;> simp_all
  intro msg msg' h h'
  simp only [hverdict, h.id, h'.id]

theorem reads_dispatchMsg (timeNs : ℤ) {dev : Dev UniqueData} (hw : dev.rxData.Wf)
    (data : List UInt8) (m : Message) :
    m.Reads (fun msg => (dispatchMsg timeNs dev data msg).1) (dispatchNeeds dev m) := by
  rw [dispatchNeeds]
  by_cases hid : m.id = cmdNotifyAnalogInput
  · cases htype : dev.uniqueData.ifType with
    | none =>
        rw [if_neg (by simp)]
        refine Determines.reads ?_
        intro msg msg' h h'
        simp [dispatchMsg, h.id, h'.id, hid, htype]
    | file =>
        rw [if_neg (by simp)]
        refine Determines.reads ?_
        intro msg msg' h h'
        have hwrite := determines_ringbufferWrite m hw msg msg' h h'
        simp only at hwrite
        simp only [dispatchMsg, h.id, h'.id, hid, htype, if_true, hwrite]
    | iio =>
        refine cast ?_ (reads_dispatchMsg_iio timeNs data hid htype)
        simp [hid]
  · rw [if_neg fun h => hid h.1]
    refine Determines.reads ?_
    intro msg msg' h h'
    have hcomplete := determines_complete m dev.rxComplete data msg msg' h h'
    simp only at hcomplete
    simp only [dispatchMsg, h.id, h'.id, if_neg hid, hcomplete]

end Ep1Ag08a

/-! ### EP1-CF02A -/

namespace Ep1Cf02a

/-- How many payload bytes `ep1_cf02a_dispatch_msg` needs. -/
def dispatchNeeds (allocated : Bool) (dev : Dev NetUniqueData) (m : Message) : ℕ :=
  if m.id = cmdNotifyRecvCANFrame ∧ dev.uniqueData.ifType = .net ∧
      dev.uniqueData.netdev.present = true ∧ allocated = true then
    14 + (rxSkb dev.uniqueData.netdev.resetTs m.payload).len
  else 0

/-- Everything but the frames for the network interface. -/
theorem determines_dispatchMsg {dev : Dev UniqueData} (hw : dev.rxData.Wf)
    (hstore : dev.uniqueData.rxStoreData.Wf) (data : List UInt8) (m : Message) :
    m.Determines fun msg => dispatchMsg dev data msg := by
  intro msg msg' h h'
  have hrx := determines_ringbufferWrite m hw msg msg' h h'
  have hstored := determines_ringbufferWrite m hstore msg msg' h h'
  have hcomplete := determines_complete m dev.rxComplete data msg msg' h h'
  simp only at hrx hstored hcomplete
  simp only [dispatchMsg, dispatchMsgCommonResponse, h.id, h'.id, hrx, hstored, hcomplete]

/-- The rings of the unit. -/
def RingsWf (dev : Dev NetUniqueData) : Prop :=
  (offline dev).rxData.Wf ∧ (offline dev).uniqueData.rxStoreData.Wf

theorem reads_netDispatchMsg (allocated : Bool) {dev : Dev NetUniqueData} (hw : RingsWf dev)
    (data : List UInt8) (m : Message) :
    m.Reads (fun msg => (netDispatchMsg allocated dev data msg).1)
      (dispatchNeeds allocated dev m) := by
  rw [dispatchNeeds]
  by_cases hnet : m.id = cmdNotifyRecvCANFrame ∧ dev.uniqueData.ifType = .net
  · have heq : ∀ msg : Msg, msg.Holds m →
        ({ dev with uniqueData := { dev.uniqueData with
            netdev := dev.uniqueData.netdev.receive allocated
              (rxSkb dev.uniqueData.netdev.resetTs msg.payload) } } : Dev NetUniqueData) =
          (netDispatchMsg allocated dev data msg).1 := by
      intro msg h
      simp only [netDispatchMsg, h.id, if_pos hnet]
    by_cases hskb : dev.uniqueData.netdev.present = true ∧ allocated = true
    · rw [if_pos ⟨hnet.1, hnet.2, hskb⟩]
      have hinjective : Function.Injective fun skb =>
          ({ dev with uniqueData := { dev.uniqueData with
              netdev := dev.uniqueData.netdev.receive allocated skb } } : Dev NetUniqueData) := by
        intro skb skb' h
        rw [hskb.2] at h
        exact Netdev.receive_injective hskb.1 (congrArg (fun dev => dev.uniqueData.netdev) h)
      exact ((reads_comp_iff hinjective).mpr (reads_rxSkb m _)).congr heq
    · rw [if_neg fun h => hskb h.2.2]
      refine Determines.reads ?_
      intro msg msg' h h'
      beta_reduce
      rw [← heq msg h, ← heq msg' h', Netdev.receive_eq_self hskb, Netdev.receive_eq_self hskb]
  · rw [if_neg fun h => hnet ⟨h.1, h.2.1⟩]
    refine Determines.reads ?_
    intro msg msg' h h'
    have hsame := determines_dispatchMsg hw.1 hw.2 data m msg msg' h h'
    simp only at hsame
    simp only [netDispatchMsg, h.id, h'.id, if_neg hnet, hsame]

theorem determines_netDispatchMsg_snd (allocated : Bool) {dev : Dev NetUniqueData}
    (hw : RingsWf dev) (data : List UInt8) (m : Message) :
    m.Determines fun msg => (netDispatchMsg allocated dev data msg).2 := by
  intro msg msg' h h'
  have hsame := determines_dispatchMsg hw.1 hw.2 data m msg msg' h h'
  simp only at hsame
  simp only [netDispatchMsg, h.id, h'.id, hsame]
  split_ifs <;> rfl

end Ep1Cf02a

/-! ### The common dispatcher -/

/-- How many payload bytes `apt_usbtrx_dispatch_msg` needs when the dispatcher of the unit needs
`unique`. -/
def dispatchNeeds {υ : Type} (dev : Dev υ) (unique : ℕ) (m : Message) : ℕ :=
  if ¬ dev.rxOngoing then 0
  else if m.id = cmdNotifyBufferStatus then 1
  else if m.id = cmdResponseGetDeviceId ∨ m.id = cmdResponseGetSerialNo ∨
      m.id = cmdResponseGetFWVersion ∨ m.id = cmdResponseGetFWVersionRevision then 0
  else if m.id = cmdACK ∨ m.id = cmdNACK then 1
  else unique

section

variable {υ : Type} {uniqueDispatch : Dispatch (Dev υ)} {dev : Dev υ} {data : List UInt8}
  {m : Message}

/-- The rate of a buffer status is the first byte. -/
theorem reads_dispatchMsg_bufferStatus (hongoing : dev.rxOngoing = true)
    (hid : m.id = cmdNotifyBufferStatus) : m.Reads (dispatchMsg uniqueDispatch dev data) 1 := by
  have heq : ∀ msg : Msg, msg.Holds m → dispatchMsg uniqueDispatch dev data msg =
      ({ dev with txBufferRate := (byteAt msg.payload 0).toNat }, .success) := by
    intro msg h
    simp [dispatchMsg, hongoing, h.id, hid, msgParseNotifyBufferStatus]
  refine Reads.congr ?_ fun msg h => (heq msg h).symm
  refine reads_of_lastByte (show 0 < maxPayload by decide) ?_ ?_
  · intro msg msg' h
    rw [h.byteAt (by omega)]
  · intro msg msg' h0 h1 h
    have hrate := congrArg (fun result : Dev υ × Result => result.1.txBufferRate) h
    simp only [h0, h1] at hrate
    exact absurd hrate (by decide)

/-- The device after an ACK or NACK for the request `id`. -/
def Dev.afterAck (dev : Dev υ) (data : List UInt8) (msg : Msg) (id : UInt8) : Dev υ :=
  let dev := if id = cmdResetTS ∧ msg.id = cmdACK then { dev with basetime := dev.resettime } else dev
  if dev.rxComplete.id = id then { dev with rxComplete := dev.rxComplete.complete data msg } else dev

theorem dispatchMsg_ack {msg : Msg} (hongoing : dev.rxOngoing = true)
    (hid : msg.id = cmdACK ∨ msg.id = cmdNACK) :
    dispatchMsg uniqueDispatch dev data msg =
      (dev.afterAck data msg (byteAt msg.payload 0), .success) := by
  have hother : ¬ msg.id = cmdNotifyBufferStatus ∧ ¬ (msg.id = cmdResponseGetDeviceId ∨
      msg.id = cmdResponseGetSerialNo ∨ msg.id = cmdResponseGetFWVersion ∨
      msg.id = cmdResponseGetFWVersionRevision) := by
    rcases hid with hid | hid <;> rw [hid] <;> decide
  rw [dispatchMsg, if_neg (not_not_intro hongoing), if_neg hother.1, if_neg hother.2, if_pos hid]
  exact (apply_ite (Prod.mk · Result.success) _ _ _).symm

/-- The completion tells the request in flight from the others. -/
theorem Dev.afterAck_ne (dev : Dev υ) (data : List UInt8) (msg msg' : Msg) {id id' : UInt8}
    (h : dev.rxComplete.id = id) (h' : dev.rxComplete.id ≠ id') :
    dev.afterAck data msg id ≠ dev.afterAck data msg' id' := by
  have hkept : ∀ p : Prop, ∀ _ : Decidable p,
      (if p then { dev with basetime := dev.resettime } else dev).rxComplete = dev.rxComplete := by
    intro p _
    split <;> rfl
  intro heq
  have hcomplete := congrArg Dev.rxComplete heq
  simp only [Dev.afterAck, hkept] at hcomplete
  rw [if_pos h, if_neg h', hkept] at hcomplete
  exact dev.rxComplete.complete_ne data msg hcomplete

/-- The request that is acknowledged is the first byte: a stale one may be the request in
flight or another one. -/
theorem reads_dispatchMsg_ack (hongoing : dev.rxOngoing = true)
    (hid : m.id = cmdACK ∨ m.id = cmdNACK) : m.Reads (dispatchMsg uniqueDispatch dev data) 1 := by
  have hheld : ∀ msg : Msg, msg.Holds m → msg.id = cmdACK ∨ msg.id = cmdNACK :=
    fun msg h => h.id ▸ hid
  refine reads_intro ?_ ?_
  · intro hcovers msg msg' h h'
    have hcomplete := determines_complete m dev.rxComplete data msg msg' h h'
    simp only at hcomplete
    rw [dispatchMsg_ack hongoing (hheld msg h), dispatchMsg_ack hongoing (hheld msg' h'),
      h.byteAt hcovers, h'.byteAt hcovers]
    simp only [Dev.afterAck, h.id, h'.id]
    by_cases hreset : byteAt m.payload 0 = cmdResetTS ∧ m.id = cmdACK
    · simp only [if_pos hreset, hcomplete]
    · simp only [if_neg hreset, hcomplete]
  · intro hcovers
    obtain ⟨id', hid'⟩ : ∃ id', dev.rxComplete.id ≠ id' := ⟨dev.rxComplete.id + 1, by simp⟩
    refine ⟨_, _, m.holds_paddedAt 0 dev.rxComplete.id, m.holds_paddedAt 0 id', ?_⟩
    rw [dispatchMsg_ack hongoing hid, dispatchMsg_ack hongoing hid,
      byteAt_paddedAt_self _ (by decide) hcovers, byteAt_paddedAt_self _ (by decide) hcovers]
    intro h
    exact dev.afterAck_ne data _ _ rfl hid' (congrArg Prod.fst h)

/-- The common dispatcher reads the first `dispatchNeeds` payload bytes. -/
theorem reads_dispatchMsg {unique : ℕ}
    (hunique : m.Reads (fun msg => (uniqueDispatch dev data msg).1) unique)
    (hresult : m.Determines fun msg => (uniqueDispatch dev data msg).2) :
    m.Reads (dispatchMsg uniqueDispatch dev data) (dispatchNeeds dev unique m) := by
  rw [dispatchNeeds]
  by_cases hongoing : dev.rxOngoing = true
  case neg =>
    rw [if_pos hongoing]
    refine Determines.reads ?_
    intro msg msg' h h'
    rw [dispatchMsg, dispatchMsg, if_pos hongoing, if_pos hongoing]
  rw [if_neg (not_not_intro hongoing)]
  by_cases hstatus : m.id = cmdNotifyBufferStatus
  · rw [if_pos hstatus]
    exact reads_dispatchMsg_bufferStatus hongoing hstatus
  rw [if_neg hstatus]
  by_cases hresponse : m.id = cmdResponseGetDeviceId ∨ m.id = cmdResponseGetSerialNo ∨
      m.id = cmdResponseGetFWVersion ∨ m.id = cmdResponseGetFWVersionRevision
  · rw [if_pos hresponse]
    refine Determines.reads ?_
    intro msg msg' h h'
    have hcomplete := determines_complete m dev.rxComplete data msg msg' h h'
    simp only at hcomplete
    simp only [dispatchMsg, h.id, h'.id, if_neg hstatus, if_pos hresponse, hcomplete]
  rw [if_neg hresponse]
  by_cases hack : m.id = cmdACK ∨ m.id = cmdNACK
  · rw [if_pos hack]
    exact reads_dispatchMsg_ack hongoing hack
  rw [if_neg hack]
  have heq : ∀ msg : Msg, msg.Holds m → dispatchMsg uniqueDispatch dev data msg =
      ((uniqueDispatch dev data msg).1,
        if (uniqueDispatch dev data msg).2 ≠ .success then .failure else .success) := by
    intro msg h
    simp only [dispatchMsg, hongoing, not_true_eq_false, if_false, h.id, if_neg hstatus,
      if_neg hresponse, if_neg hack]
    split_ifs <;> rfl
  refine Iff.trans ⟨?_, ?_⟩ hunique
  · intro h msg msg' hmsg hmsg'
    have hsame := congrArg Prod.fst (h msg msg' hmsg hmsg')
    rwa [heq msg hmsg, heq msg' hmsg'] at hsame
  · intro h msg msg' hmsg hmsg'
    have hdev := h msg msg' hmsg hmsg'
    have hverdict := hresult msg msg' hmsg hmsg'
    simp only at hdev hverdict
    rw [heq msg hmsg, heq msg' hmsg', hdev, hverdict]

end

/-! ### All that is done with a received message -/

/-- `apt_usbtrx_dispatch_msg` on a device of one of the four kinds, and the decoders. -/
inductive Handler where
  | ct2a (env : ApCt2a.KernelEnv) (dev : Dev ApCt2a.UniqueDataCan) (hw : dev.rxData.Wf)
  | ch02a (env : ApCt2a.KernelEnv) (dev : Dev ApCt2a.UniqueDataCan) (hw : dev.rxData.Wf)
  | cf02a (allocated : Bool) (dev : Dev Ep1Cf02a.NetUniqueData) (hw : Ep1Cf02a.RingsWf dev)
  | ag08a (timeNs : ℤ) (dev : Dev Ep1Ag08a.UniqueData) (hw : dev.rxData.Wf)
  | decoder (d : Decoder)

namespace Handler

/-- The device after the message and the returned value, or the outputs of the decoder. -/
def Effect : Handler → Type
  | ct2a _ _ _ | ch02a _ _ _ => Dev ApCt2a.UniqueDataCan × Result
  | cf02a _ _ _ => Dev Ep1Cf02a.NetUniqueData × Result
  | ag08a _ _ _ => Dev Ep1Ag08a.UniqueData × Result
  | decoder d => d.Output

/-- `data` is the received frame, `msg` what the parser made of it. -/
def run : (handler : Handler) → List UInt8 → Msg → handler.Effect
  | ct2a env dev _, data, msg => dispatchMsg (ApCt2a.dispatchMsg env) dev data msg
  | ch02a env dev _, data, msg => dispatchMsg (Ep1Ch02a.dispatchMsg env) dev data msg
  | cf02a allocated dev _, data, msg =>
      dispatchMsg (Ep1Cf02a.netDispatchMsg allocated) dev data msg
  | ag08a timeNs dev _, data, msg => dispatchMsg (Ep1Ag08a.dispatchMsg timeNs) dev data msg
  | decoder d, _, msg => d.decode msg

/-- How many payload bytes the effect depends on. -/
def needs (handler : Handler) (m : Message) : ℕ :=
  match handler with
  | ct2a env dev _ => dispatchNeeds dev (ApCt2a.dispatchNeeds env dev m) m
  | ch02a env dev _ => dispatchNeeds dev (Ep1Ch02a.dispatchNeeds env dev m) m
  | cf02a allocated dev _ => dispatchNeeds dev (Ep1Cf02a.dispatchNeeds allocated dev m) m
  | ag08a _ dev _ => dispatchNeeds dev (Ep1Ag08a.dispatchNeeds dev m) m
  | decoder d => d.needs m

theorem reads (handler : Handler) (data : List UInt8) (m : Message) :
    m.Reads (handler.run data) (handler.needs m) := by
  cases handler with
  | ct2a env dev hw =>
      exact reads_dispatchMsg (ApCt2a.reads_dispatchMsg env hw data m)
        (ApCt2a.determines_dispatchMsg_snd env dev data m)
  | ch02a env dev hw =>
      exact reads_dispatchMsg (Ep1Ch02a.reads_dispatchMsg env hw data m)
        (Ep1Ch02a.determines_dispatchMsg_snd env dev data m)
  | cf02a allocated dev hw =>
      exact reads_dispatchMsg (Ep1Cf02a.reads_netDispatchMsg allocated hw data m)
        (Ep1Cf02a.determines_netDispatchMsg_snd allocated hw data m)
  | ag08a timeNs dev hw =>
      exact reads_dispatchMsg (Ep1Ag08a.reads_dispatchMsg timeNs hw data m)
        (Ep1Ag08a.determines_dispatchMsg_snd timeNs dev data m)
  | decoder d => exact d.reads m

/-- What is done with an accepted frame does not depend on the bytes that the message structure
held before exactly when the payload is as long as the handler needs it. -/
theorem effect_of_frame_iff (handler : Handler) {data : List UInt8} {n : ℕ}
    (hn : n ≤ data.length) {before msg : Msg}
    (hparse : msgParse data n before = (.success, msg)) :
    (∀ stale stale' : Msg, handler.run data (msgParse data n stale).2 =
        handler.run data (msgParse data n stale').2) ↔
      handler.needs msg.message ≤ msg.payloadSize.toNat := by
  have hsuccess := congrArg Prod.fst hparse
  obtain ⟨m, hlength, hdata⟩ := eq_encode_of_success hn hsuccess
  have hmessage : msg.message = m := by
    rw [← msgParse_encode m (data.drop m.length) before hlength, ← hdata, hparse]
  have hsize : msg.payloadSize.toNat = m.payload.length := by
    have hholds := holds_msgParse m (data.drop m.length) hlength before
    rw [← hdata, hparse] at hholds
    rw [hholds.size, m.toNat_payloadSize]
  rw [hmessage, hsize]
  have hiff := determines_iff_parse m (data.drop m.length) hlength (handler.run data)
  rw [← hdata] at hiff
  exact hiff.symm.trans (handler.reads data m)

end Handler

/-- An ACK without the request that it answers. -/
def emptyAck : List UInt8 := [msgSob, 0x04, cmdACK, msgEob]

/-- A structure whose payload array starts with the byte. -/
def staleByte (b : UInt8) : Msg := Msg.zero.copyPayload [b]

/-- An EP1-AG08A after the probe. -/
def Ep1Ag08a.probed : Dev Ep1Ag08a.UniqueData :=
  Dev.probed 0x10000000 Ep1Ag08a.rxdataBufferSize 0x20000000 ⟨0, 0⟩ Ep1Ag08a.initData

theorem Ep1Ag08a.wf_rxData_probed : Ep1Ag08a.probed.rxData.Wf :=
  wf_ringbufferInit (by decide) (by decide)

/-- The frame is accepted, and the stale byte decides whether it answers the command in
flight. -/
theorem emptyAck_stale_byte_decides :
    (msgParse emptyAck 4 (staleByte 0)).1 = .success ∧
      (msgParse emptyAck 4 (staleByte 1)).1 = .success ∧
      (dispatchMsg (Ep1Ag08a.dispatchMsg 0) Ep1Ag08a.probed emptyAck
        (msgParse emptyAck 4 (staleByte 0)).2).1.rxComplete.done = 1 ∧
      (dispatchMsg (Ep1Ag08a.dispatchMsg 0) Ep1Ag08a.probed emptyAck
        (msgParse emptyAck 4 (staleByte 1)).2).1.rxComplete.done = 0 := by
  decide +kernel

/-- The rule applied to the empty ACK. -/
theorem emptyAck_effect :
    ¬ ∀ stale stale' : Msg,
      (Handler.ag08a 0 Ep1Ag08a.probed Ep1Ag08a.wf_rxData_probed).run emptyAck
          (msgParse emptyAck 4 stale).2 =
        (Handler.ag08a 0 Ep1Ag08a.probed Ep1Ag08a.wf_rxData_probed).run emptyAck
          (msgParse emptyAck 4 stale').2 := by
  have hparse : msgParse emptyAck 4 Msg.zero = (.success, (msgParse emptyAck 4 Msg.zero).2) :=
    Prod.ext (by decide +kernel) rfl
  intro h
  have hneeds := (Handler.effect_of_frame_iff
    (.ag08a 0 Ep1Ag08a.probed Ep1Ag08a.wf_rxData_probed) (show 4 ≤ emptyAck.length by decide)
    hparse).mp h
  exact absurd hneeds (by decide +kernel)

end AptUsbtrx
