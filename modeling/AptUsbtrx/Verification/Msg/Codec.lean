import AptUsbtrx.Verification.Msg.Grammar

/-! # The parser and the packer are inverse

The three verdicts of the parser, what it makes of a packed message and what the packer makes of
a parsed one. -/

namespace AptUsbtrx

open Memory

/-- What parsing the frame of `msg` in front of `tail` gives, into a structure that held `held`. -/
structure PackSpec (msg held : Msg) (tail : List UInt8) : Prop where
  pack : ∀ buf : List UInt8, buf.length = payloadLengthToMsg msg.payloadSize.toNat →
    msgPack msg buf (payloadLengthToMsg msg.payloadSize.toNat) = (.success, packed msg)
  length : (packed msg).length = payloadLengthToMsg msg.payloadSize.toNat
  verdict : (msgParse (packed msg ++ tail) (packed msg ++ tail).length held).1 = .success
  id : (msgParse (packed msg ++ tail) (packed msg ++ tail).length held).2.id = msg.id
  payloadSize : (msgParse (packed msg ++ tail) (packed msg ++ tail).length held).2.payloadSize =
    msg.payloadSize
  bytes : (msgParse (packed msg ++ tail) (packed msg ++ tail).length held).2.bytes = msg.bytes

/-- What parsing all of `data` gives, and what of it stays when more bytes follow. -/
structure ParseSpec (data : List UInt8) (held : Msg) : Prop where
  success_iff : (msgParse data data.length held).1 = .success ↔
    byteAt data 0 = 0xF7 ∧ 4 ≤ (byteAt data 1).toNat ∧ (byteAt data 1).toNat ≤ 82 ∧
      (byteAt data 1).toNat ≤ data.length ∧ byteAt data ((byteAt data 1).toNat - 1) = 0xFA
  repack : (msgParse data data.length held).1 = .success →
    packed (msgParse data data.length held).2 = data.take (byteAt data 1).toNat
  notEnough_iff : (msgParse data data.length held).1 = .notEnough ↔
    byteAt data 0 = 0xF7 ∧ 4 ≤ (byteAt data 1).toNat ∧ (byteAt data 1).toNat ≤ 82 ∧
      data.length < (byteAt data 1).toNat
  stable : (msgParse data data.length held).1 ≠ .notEnough → ∀ tail : List UInt8,
    msgParse (data ++ tail) (data ++ tail).length held = msgParse data data.length held

variable {msg held : Msg} {data : List UInt8}

theorem length_packed (h : msg.payloadSize.toNat ≤ maxPayload) :
    (packed msg).length = payloadLengthToMsg msg.payloadSize.toNat := by
  rw [packed_eq h, Message.encode_length, Msg.length_message h]

theorem msgPack_eq_packed (h : msg.payloadSize.toNat ≤ maxPayload) {buf : List UInt8}
    (hbuf : buf.length = payloadLengthToMsg msg.payloadSize.toNat) :
    msgPack msg buf (payloadLengthToMsg msg.payloadSize.toNat) = (.success, packed msg) := by
  have hlen : msg.message.encode.length = buf.length := by
    rw [Message.encode_length, Msg.length_message h, hbuf]
  rw [msgPack_eq h (Nat.le_refl _), overwrite_eq_self hlen, packed_eq h]

theorem packSpec_of_le (h : msg.payloadSize.toNat ≤ maxPayload) (held : Msg) (tail : List UInt8) :
    PackSpec msg held tail := by
  have hle : msg.message.length ≤ (packed msg ++ tail).length := by
    rw [packed_eq h, List.length_append, Message.encode_length]
    omega
  have hverdict : (msgParse (packed msg ++ tail) (packed msg ++ tail).length held).1 = .success := by
    rw [packed_eq h] at hle ⊢
    exact msgParse_encode_fst msg.message tail held hle
  have hmessage : (msgParse (packed msg ++ tail) (packed msg ++ tail).length held).2.message =
      msg.message := by
    rw [packed_eq h] at hle ⊢
    exact msgParse_encode msg.message tail held hle
  have hbytes := congrArg Message.payload hmessage
  have hsize := payloadSize_le_of_success hverdict
  refine ⟨fun buf hbuf => msgPack_eq_packed h hbuf, length_packed h, hverdict,
    congrArg Message.id hmessage, ?_, hbytes⟩
  have hlen := congrArg List.length hbytes
  simp only [Msg.message_payload, Msg.length_bytes hsize, Msg.length_bytes h] at hlen
  exact UInt8.toNat_inj.mp hlen

/-- Packing a parsed message gives its frame again. -/
theorem packed_of_success (h : (msgParse data data.length held).1 = .success) :
    packed (msgParse data data.length held).2 = data.take (frameLength data) := by
  obtain ⟨m, hm, hdata⟩ := eq_encode_of_success (Nat.le_refl _) h
  have hlength : frameLength data = m.length := by
    rw [hdata, frameLength_encode]
  have hmessage : (msgParse data data.length held).2.message = m := by
    rw [hdata]
    rw [hdata] at hm
    exact msgParse_encode m _ held hm
  rw [packed_eq (payloadSize_le_of_success h), hmessage, hlength]
  calc m.encode
    _ = (m.encode ++ data.drop m.length).take m.encode.length := List.take_left.symm
    _ = data.take m.length := by rw [← hdata, m.encode_length]

/-- Only the verdict that bytes are missing depends on what follows. -/
theorem msgParse_append_of_ne_notEnough (h : 2 ≤ data.length)
    (hne : (msgParse data data.length held).1 ≠ .notEnough) (tail : List UInt8) :
    msgParse (data ++ tail) (data ++ tail).length held = msgParse data data.length held := by
  have hlength := frameLength_append tail h
  have hvalid := validHeader_append tail h
  rw [msgParse_eq, msgParse_eq, hlength]
  by_cases hv : ValidHeader data
  · have hle : ¬ data.length < frameLength data := fun hlt =>
      hne ((msgParse_notEnough_iff data data.length held).mpr ⟨hv, hlt⟩)
    have hmin := hv.2.1
    simp only [cmdMinLength] at hmin
    have hslice : slice (data ++ tail) 3 (frameLength data - 4) =
        slice data 3 (frameLength data - 4) := by
      rw [slice, slice, List.drop_append_of_le_length (by omega),
        List.take_append_of_le_length (by rw [List.length_drop]; omega)]
    simp only [parsedMsg, msgLengthToPayload, hlength, hslice]
    rw [byteAt_append_left tail (show frameLength data - 1 < data.length by omega),
      byteAt_append_left tail (show 2 < data.length by omega), if_pos hv, if_pos (hvalid.mpr hv),
      if_neg hle, if_neg (by rw [List.length_append]; omega)]
  · rw [if_neg hv, if_neg (mt hvalid.mp hv)]

theorem parseSpec_of_two (h : 2 ≤ data.length) (held : Msg) : ParseSpec data held where
  success_iff := by
    rw [msgParse_success_iff]
    simp only [ValidHeader, and_assoc]
    rfl
  repack := packed_of_success
  notEnough_iff := by
    rw [msgParse_notEnough_iff]
    simp only [ValidHeader, and_assoc]
    rfl
  stable := fun hne tail => msgParse_append_of_ne_notEnough h hne tail

/-- A packed message in front of any bytes is parsed back, and a string of at least two bytes is
accepted, refused or waited for as the grammar of the frames says. -/
theorem msgParse_msgPack_inverse :
    (∀ (msg held : Msg) (tail : List UInt8), msg.payloadSize.toNat ≤ 78 →
      PackSpec msg held tail) ∧
    ∀ (data : List UInt8) (held : Msg), 2 ≤ data.length → ParseSpec data held :=
  ⟨fun _ held tail h => packSpec_of_le h held tail, fun _ held h => parseSpec_of_two h held⟩

/-- An acknowledgement in front of a byte of noise, and a frame whose last byte is missing. -/
theorem msgParse_msgPack_inverse_ack :
    PackSpec ⟨cmdACK, List.replicate maxPayload cmdResetTS, 1, List.length_replicate⟩ Msg.zero
        [0xF7] ∧
      ParseSpec [0xF7, 0x05, 0x25, 0x07] Msg.zero :=
  ⟨msgParse_msgPack_inverse.1 _ _ _ (by decide), msgParse_msgPack_inverse.2 _ _ (by decide)⟩

end AptUsbtrx
