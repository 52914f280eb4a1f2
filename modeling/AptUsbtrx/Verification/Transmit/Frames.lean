import AptUsbtrx.Model.Transmit
import AptUsbtrx.Verification.Receive.Framing
import AptUsbtrx.Verification.Ringbuffer.Operations

/-! # Frames in the transmit ring

A write appends a whole frame or nothing, and the thread finds a whole frame in front of
the ring: its length byte says how much is left to read. -/

namespace AptUsbtrx

open Memory

/-- What the packer makes of a message. -/
def Frame (f : List UInt8) : Prop :=
  ∃ msg : Msg, msg.payloadSize.toNat ≤ maxPayload ∧ f = packed msg

/-- A frame is that of a message. -/
theorem Frame.eq_encode {f : List UInt8} (h : Frame f) : ∃ m : Message, f = m.encode := by
  obtain ⟨msg, hsize, rfl⟩ := h
  exact ⟨msg.message, packed_eq hsize⟩

section

variable {υ : Type} {ring : Ringbuffer}

/-- What `apt_usbtrx_write_tx_rb` does to the device, with `f` the frame of the message. -/
structure WriteSpec (dev : Dev υ) (f : List UInt8) (payloadSize : UInt8) (ret : ℤ)
    (dev' : Dev υ) : Prop where
  wf : dev'.txData.Wf
  endPtr : dev'.txData.endPtr = dev.txData.endPtr
  accepted : 0 < ret → payloadSize.toNat ≤ maxPayload ∧
    dev'.txData.queue = dev.txData.queue ++ f
  rejected : ¬ 0 < ret → dev'.txData.queue = dev.txData.queue

theorem writeSpec_of_rejected {dev : Dev υ} (hw : dev.txData.Wf) (f : List UInt8)
    (payloadSize : UInt8) {ret : ℤ} (hret : ¬ 0 < ret) : WriteSpec dev f payloadSize ret dev where
  wf := hw
  endPtr := rfl
  accepted h := absurd h hret
  rejected _ := rfl

/-- The write of a payload that can be sent, on a device that is open: the frame is stored when it
fits. -/
theorem writeTxRb_cases (writeCmdId : UInt8) {dev : Dev υ} (hw : dev.txData.Wf)
    (hroom : dev.txData.endPtr + cmdMaxLength < 2 ^ 64) (payload : List UInt8)
    {payloadSize : UInt8} (msg : Msg) (hzero : payloadSize ≠ 0) (hopening : ¬ dev.onopening)
    (hclosing : ¬ dev.onclosing) (hle : payloadSize.toNat ≤ maxPayload) :
    dev.txData.Fits (payloadLengthToMsg payloadSize.toNat) ∧
        (writeTxRb writeCmdId dev payload payloadSize msg).1 = payloadSize.toNat ∧
        Written dev.txData (packed (writeMsg writeCmdId payload payloadSize msg))
          (writeTxRb writeCmdId dev payload payloadSize msg).2.txData ∨
      ¬ dev.txData.Fits (payloadLengthToMsg payloadSize.toNat) ∧
        (writeTxRb writeCmdId dev payload payloadSize msg).1 = -eio ∧
        ((writeTxRb writeCmdId dev payload payloadSize msg).2 = dev ∨
          (writeTxRb writeCmdId dev payload payloadSize msg).2 = { dev with
            txData := skipped dev.txData (payloadLengthToMsg payloadSize.toNat) }) := by
  have hsize : (UInt8.ofNat (payloadLengthToMsg payloadSize.toNat)).toNat =
      payloadLengthToMsg payloadSize.toNat := by
    simp only [payloadLengthToMsg, maxPayload] at hle ⊢
    rw [UInt8.toNat_ofNat', Nat.mod_eq_of_lt (by omega)]
  have hbig : ¬ payloadSize.toNat > msgLengthToPayload cmdMaxLength := Nat.not_lt.mpr hle
  rw [writeTxRb, if_neg hzero, if_neg hopening, if_neg hclosing, if_neg hbig]
  generalize hm : writeMsg writeCmdId payload payloadSize msg = m
  have hmsize : m.payloadSize = payloadSize := by
    rw [← hm]
    rfl
  have hmle : m.payloadSize.toNat ≤ maxPayload := hmsize ▸ hle
  have hlen : m.message.encode.length = payloadLengthToMsg payloadSize.toNat := by
    rw [Message.encode_length, Msg.length_message hmle, hmsize]
  have hpack : msgPack m (List.replicate cmdMaxLength 0) (payloadLengthToMsg payloadSize.toNat) =
      (.success, overwrite (List.replicate cmdMaxLength 0) 0 m.message.encode) :=
    msgPack_eq hmle (by rw [hmsize])
  have hfit : m.message.encode.length ≤ (List.replicate cmdMaxLength (0 : UInt8)).length := by
    rw [List.length_replicate, Message.encode_length]
    exact m.message.length_bounds.2
  have hroom' : dev.txData.endPtr + payloadLengthToMsg payloadSize.toNat < 2 ^ 64 := by
    simp only [cmdMaxLength, payloadLengthToMsg, maxPayload] at hroom hle ⊢
    omega
  have hwrite : ringbufferWrite dev.txData
      (overwrite (List.replicate cmdMaxLength 0) 0 m.message.encode)
        (payloadLengthToMsg payloadSize.toNat) =
      ringbufferWrite dev.txData m.message.encode (payloadLengthToMsg payloadSize.toNat) := by
    rw [← ringbufferWrite_take hw, ← hlen, take_overwrite_zero hfit]
  rw [hsize]
  dsimp only
  rw [hpack]
  dsimp only
  rw [if_neg (not_not_intro rfl), packed_eq hmle]
  by_cases hfree : ringbufferGetFreeSize dev.txData < payloadLengthToMsg payloadSize.toNat
  · rw [if_pos hfree]
    refine .inr ⟨fun hfits => ?_, rfl, .inl rfl⟩
    have hcapacity := le_bufferSize_of_fits hw hfits
    rw [ringbufferGetFreeSize_eq hw] at hfree
    omega
  rw [if_neg hfree, hwrite]
  rcases ringbufferWrite_cases hw hlen (hw.writePtr_add_lt hroom') (Nat.succ_pos _) with
    ⟨hfits, hret, hwritten⟩ | ⟨hfits, hskip⟩
  · generalize ringbufferWrite dev.txData m.message.encode
      (payloadLengthToMsg payloadSize.toNat) = r at hret hwritten
    obtain ⟨ret, ring⟩ := r
    obtain rfl : ret = _ := hret
    rw [if_neg (by omega)]
    exact .inl ⟨hfits, rfl, hwritten⟩
  · rw [hskip, if_pos (show (-1 : ℤ) < 0 by decide)]
    exact .inr ⟨hfits, rfl, .inr rfl⟩

theorem writeTxRb_spec (writeCmdId : UInt8) {dev : Dev υ} (hw : dev.txData.Wf)
    (hroom : dev.txData.endPtr + cmdMaxLength < 2 ^ 64) (payload : List UInt8)
    (payloadSize : UInt8) (msg : Msg) :
    WriteSpec dev (packed (writeMsg writeCmdId payload payloadSize msg)) payloadSize
      (writeTxRb writeCmdId dev payload payloadSize msg).1
      (writeTxRb writeCmdId dev payload payloadSize msg).2 := by
  have hreject (ret : ℤ) (hret : ¬ 0 < ret) := writeSpec_of_rejected hw
    (packed (writeMsg writeCmdId payload payloadSize msg)) payloadSize hret
  by_cases hzero : payloadSize = 0
  · rw [writeTxRb, if_pos hzero]
    exact hreject 0 (by decide)
  by_cases hopening : dev.onopening
  · rw [writeTxRb, if_neg hzero, if_pos hopening]
    exact hreject (-enodev) (by decide)
  by_cases hclosing : dev.onclosing
  · rw [writeTxRb, if_neg hzero, if_neg hopening, if_pos hclosing]
    exact hreject (-eshutdown) (by decide)
  by_cases hbig : payloadSize.toNat > msgLengthToPayload cmdMaxLength
  · rw [writeTxRb, if_neg hzero, if_neg hopening, if_neg hclosing, if_pos hbig]
    exact hreject (-eio) (by decide)
  have hle : payloadSize.toNat ≤ maxPayload := Nat.le_of_not_lt hbig
  rcases writeTxRb_cases writeCmdId hw hroom payload msg hzero hopening hclosing hle with
    ⟨-, hret, hwritten⟩ | ⟨-, hret, hsame | hskip⟩
  · have hpos : 0 < payloadSize.toNat := Nat.pos_of_ne_zero fun h => hzero (UInt8.toNat_inj.mp h)
    refine ⟨hwritten.wf, ?_, fun _ => ⟨hle, hwritten.queue⟩, fun hnot => ?_⟩
    · rw [hwritten.wf.end_eq, hw.end_eq, hwritten.beginPtr, hwritten.bufferSize]
    · rw [hret] at hnot
      exact absurd (Int.natCast_pos.mpr hpos) hnot
  · rw [hret, hsame]
    exact hreject (-eio) (by decide)
  · rw [hret, hskip]
    exact ⟨wf_skipped hw _, rfl, fun h => absurd h (show ¬ (0 : ℤ) < -eio by decide), fun _ => rfl⟩

/-! ### Reading a frame back -/

theorem ReadSpec.ret_of_le {n : ℕ} {result : ReadResult} (h : ReadSpec ring n result)
    (hn : n ≤ ring.queue.length) : result.ret = n := by
  rw [h.ret, Nat.min_eq_left hn]

variable {bufferAddr : ℕ} (haddr : bufferAddr ≠ 0) (hw : ring.Wf)
  (hroom : ring.endPtr + cmdMaxLength < 2 ^ 64)

include haddr hw hroom

/-- The header of an empty ring. -/
theorem readHeader_empty (hqueue : ring.queue = []) :
    (readHeader bufferAddr ring).1 = .empty ∧
      Removed ring cmdMinLength (readHeader bufferAddr ring).2 := by
  simp only [cmdMaxLength] at hroom
  have hread : ReadSpec ring cmdMinLength (ringbufferRawread ring bufferAddr cmdMinLength) :=
    ringbufferRawread_spec hw haddr (by simp only [cmdMinLength]; omega)
  have hret : (ringbufferRawread ring bufferAddr cmdMinLength).ret = 0 := by
    rw [hread.ret, hqueue]
    rfl
  rw [readHeader]
  dsimp only
  rw [if_pos hret]
  exact ⟨rfl, hread.removed⟩

/-- The thread finds nothing in an empty ring only. -/
theorem queue_eq_nil_of_readHeader (hempty : (readHeader bufferAddr ring).1 = .empty) :
    ring.queue = [] := by
  simp only [cmdMaxLength] at hroom
  have hread : ReadSpec ring cmdMinLength (ringbufferRawread ring bufferAddr cmdMinLength) :=
    ringbufferRawread_spec hw haddr (by simp only [cmdMinLength]; omega)
  rw [readHeader] at hempty
  dsimp only at hempty
  split at hempty
  case isTrue hret =>
    rw [hread.ret, cmdMinLength] at hret
    apply List.eq_nil_of_length_eq_zero
    omega
  case isFalse =>
    repeat' split at hempty
    all_goals cases hempty

/-- The header of the frame in front of the ring. -/
theorem readHeader_frame {m : Message} {tail : List UInt8} (hqueue : ring.queue = m.encode ++ tail) :
    ∃ buffer, (readHeader bufferAddr ring).1 = .ok buffer m.length ∧
      buffer.length = cmdMaxLength ∧ buffer.take cmdMinLength = m.encode.take cmdMinLength ∧
      Removed ring cmdMinLength (readHeader bufferAddr ring).2 := by
  simp only [cmdMaxLength] at hroom
  have hbounds := m.length_bounds
  have henc := m.encode_length
  have hread : ReadSpec ring cmdMinLength (ringbufferRawread ring bufferAddr cmdMinLength) :=
    ringbufferRawread_spec hw haddr (by simp only [cmdMinLength]; omega)
  have hle : cmdMinLength ≤ ring.queue.length := by
    rw [hqueue, List.length_append]
    omega
  have hret := hread.ret_of_le hle
  have hout : (ringbufferRawread ring bufferAddr cmdMinLength).out = m.encode.take cmdMinLength := by
    rw [hread.out, hqueue, List.take_append_of_le_length (by omega)]
  have houtlen : (m.encode.take cmdMinLength).length = cmdMinLength := by
    rw [List.length_take]
    omega
  have hfront : (overwrite (List.replicate cmdMaxLength 0) 0 (m.encode.take cmdMinLength)).take
      cmdMinLength = m.encode.take cmdMinLength := by
    have hfit : (m.encode.take cmdMinLength).length ≤
        (List.replicate cmdMaxLength (0 : UInt8)).length := by
      rw [houtlen, List.length_replicate]
      decide
    have htake := take_overwrite_zero hfit
    rwa [houtlen] at htake
  have hlength : byteAt (overwrite (List.replicate cmdMaxLength 0) 0
      (m.encode.take cmdMinLength)) 1 = UInt8.ofNat m.length := by
    rw [← byteAt_take (show 1 < cmdMinLength by decide), hfront,
      byteAt_take (show 1 < cmdMinLength by decide)]
    rfl
  have hget : msgGetLength (overwrite (List.replicate cmdMaxLength 0) 0
      (m.encode.take cmdMinLength)) cmdMinLength = (.success, UInt8.ofNat m.length) := by
    rw [msgGetLength, if_neg (Nat.lt_irrefl _), hlength]
  have heq : readHeader bufferAddr ring = (.ok (overwrite (List.replicate cmdMaxLength 0) 0
      (m.encode.take cmdMinLength)) m.length,
        (ringbufferRawread ring bufferAddr cmdMinLength).ring) := by
    rw [readHeader]
    dsimp only
    rw [hret, hout, if_neg (by decide), if_neg (by decide), hget]
    dsimp only
    rw [m.toNat_lengthByte, if_neg (not_not_intro rfl), if_neg (by omega)]
  rw [heq]
  exact ⟨_, rfl, (length_overwrite _ _ _).trans List.length_replicate, hfront, hread.removed⟩

end

end AptUsbtrx
