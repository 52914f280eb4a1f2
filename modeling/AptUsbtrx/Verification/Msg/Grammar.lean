import AptUsbtrx.Model.Msg
import AptUsbtrx.Shared.StreamDecoder

/-! # The frame grammar

A message of the protocol is an id with at most 78 payload bytes. Its frame is
`SOB length id payload EOB`; the parser accepts exactly the frames. -/

namespace AptUsbtrx

open Memory

/-- A message as the protocol sees it: an id and the payload bytes. -/
@[ext] structure Message where
  id : UInt8
  payload : List UInt8
  size_le : payload.length ≤ maxPayload
  deriving DecidableEq

namespace Message

/-- The length of the frame. -/
def length (m : Message) : ℕ := payloadLengthToMsg m.payload.length

/-- The frame of a message. -/
def encode (m : Message) : List UInt8 :=
  [msgSob, UInt8.ofNat m.length, m.id] ++ m.payload ++ [msgEob]

@[simp] theorem encode_length (m : Message) : m.encode.length = m.length := by
  simp [encode, length, payloadLengthToMsg]

theorem length_eq (m : Message) : m.length = m.payload.length + 4 := rfl

theorem length_bounds (m : Message) : cmdMinLength ≤ m.length ∧ m.length ≤ cmdMaxLength := by
  have := m.size_le
  simp only [length, payloadLengthToMsg, cmdMinLength, cmdMaxLength, maxPayload] at *
  omega

theorem length_pos (m : Message) : 0 < m.length := by
  rw [m.length_eq]
  omega

@[simp] theorem toNat_lengthByte (m : Message) : (UInt8.ofNat m.length).toNat = m.length := by
  have := m.length_bounds.2
  simp only [cmdMaxLength] at this
  rw [UInt8.toNat_ofNat', Nat.mod_eq_of_lt (by omega)]

theorem toNat_payloadSize (m : Message) :
    (UInt8.ofNat m.payload.length).toNat = m.payload.length := by
  have := m.size_le
  simp only [maxPayload] at this
  rw [UInt8.toNat_ofNat', Nat.mod_eq_of_lt (by omega)]

@[simp] theorem msgLengthToPayload_length (m : Message) :
    msgLengthToPayload m.length = m.payload.length := by
  simp [length, msgLengthToPayload, payloadLengthToMsg]

theorem encode_append (m : Message) (tail : List UInt8) :
    m.encode ++ tail =
      msgSob :: UInt8.ofNat m.length :: m.id :: (m.payload ++ msgEob :: tail) := by
  simp [encode]

end Message

/-- The message held by the structure. -/
def Msg.message (msg : Msg) : Message :=
  ⟨msg.id, msg.bytes, by simp [bytes, List.length_take, msg.payload_length]⟩

@[simp] theorem Msg.message_id (msg : Msg) : msg.message.id = msg.id := rfl
@[simp] theorem Msg.message_payload (msg : Msg) : msg.message.payload = msg.bytes := rfl

theorem Msg.length_bytes {msg : Msg} (h : msg.payloadSize.toNat ≤ maxPayload) :
    msg.bytes.length = msg.payloadSize.toNat := by
  rw [bytes, List.length_take, msg.payload_length]
  omega

theorem Msg.length_message {msg : Msg} (h : msg.payloadSize.toNat ≤ maxPayload) :
    msg.message.length = payloadLengthToMsg msg.payloadSize.toNat := by
  rw [Message.length, message_payload, length_bytes h]

/-- The packer writes the frame of the message. -/
theorem msgPack_eq {msg : Msg} {data : List UInt8} {dataSize : ℕ}
    (hmsg : msg.payloadSize.toNat ≤ maxPayload)
    (hsize : payloadLengthToMsg msg.payloadSize.toNat ≤ dataSize) :
    msgPack msg data dataSize = (.success, overwrite data 0 msg.message.encode) := by
  rw [msgPack, if_neg (by omega), Message.encode, Msg.length_message hmsg]
  rfl

/-- The frame of a message as the packer stores it in a buffer of the exact size. -/
def packed (msg : Msg) : List UInt8 :=
  (msgPack msg (List.replicate (payloadLengthToMsg msg.payloadSize.toNat) 0)
    (payloadLengthToMsg msg.payloadSize.toNat)).2

theorem packed_eq {msg : Msg} (h : msg.payloadSize.toNat ≤ maxPayload) :
    packed msg = msg.message.encode := by
  have hlen : msg.message.encode.length =
      (List.replicate (payloadLengthToMsg msg.payloadSize.toNat) (0 : UInt8)).length := by
    rw [Message.encode_length, Msg.length_message h, List.length_replicate]
  rw [packed, msgPack_eq h (Nat.le_refl _)]
  exact overwrite_eq_self hlen

/-! ### The verdict of the parser -/

/-- The total length announced by the second byte. -/
def frameLength (data : List UInt8) : ℕ := (byteAt data 1).toNat

/-- The first two bytes announce a frame. -/
def ValidHeader (data : List UInt8) : Prop :=
  byteAt data 0 = msgSob ∧ cmdMinLength ≤ frameLength data ∧ frameLength data ≤ cmdMaxLength

instance (data : List UInt8) : Decidable (ValidHeader data) := inferInstanceAs (Decidable (_ ∧ _))

theorem frameLength_append {data : List UInt8} (tail : List UInt8) (h : 2 ≤ data.length) :
    frameLength (data ++ tail) = frameLength data := by
  rw [frameLength, frameLength, byteAt_append_left tail (by omega)]

theorem validHeader_append {data : List UInt8} (tail : List UInt8) (h : 2 ≤ data.length) :
    ValidHeader (data ++ tail) ↔ ValidHeader data := by
  rw [ValidHeader, ValidHeader, frameLength_append tail h,
    byteAt_append_left tail (by omega)]

/-- The structure after a successful parse. -/
def parsedMsg (data : List UInt8) (msg : Msg) : Msg :=
  { msg.copyPayload (slice data 3 (msgLengthToPayload (frameLength data))) with
    id := byteAt data 2
    payloadSize := UInt8.ofNat (msgLengthToPayload (frameLength data)) }

/-- The parser with its unreachable branches removed. -/
theorem msgParse_eq (data : List UInt8) (dataSize : ℕ) (msg : Msg) :
    msgParse data dataSize msg =
      if ValidHeader data then
        if dataSize < frameLength data then (.notEnough, msg)
        else if byteAt data (frameLength data - 1) = msgEob then (.success, parsedMsg data msg)
        else (.failure, msg)
      else (.failure, msg) := by
  have hlength : (byteAt data 1).toNat = frameLength data := rfl
  by_cases hv : ValidHeader data
  · obtain ⟨hsob, hlo, hhi⟩ := hv
    have hmin : ¬ frameLength data < cmdMinLength := by omega
    have hmax : ¬ frameLength data > cmdMaxLength := by omega
    have hmsg : ¬ frameLength data > msgMaxLength := by
      simp only [cmdMaxLength, msgMaxLength] at *
      omega
    have hpay : ¬ msgLengthToPayload (frameLength data) > msgLengthToPayload cmdMaxLength := by
      simp only [msgLengthToPayload]
      omega
    have heob : 3 + msgLengthToPayload (frameLength data) = frameLength data - 1 := by
      simp only [msgLengthToPayload, cmdMinLength] at *
      omega
    rw [if_pos ⟨hsob, hlo, hhi⟩, parsedMsg]
    simp only [msgParse, hlength, hsob, hmin, hmax, hmsg, hpay, heob, ne_eq, not_true_eq_false,
      if_false]
    by_cases hn : dataSize < frameLength data
    · rw [if_pos hn, if_pos hn]
    · rw [if_neg hn, if_neg hn]
      by_cases he : byteAt data (frameLength data - 1) = msgEob
      · simp only [he, not_true_eq_false, if_true, if_false]
      · simp only [he, not_false_eq_true, if_true, if_false]
  · rw [if_neg hv]
    simp only [msgParse, hlength]
    by_cases hsob : byteAt data 0 = msgSob
    · have hout : frameLength data < cmdMinLength ∨ frameLength data > cmdMaxLength := by
        simp only [ValidHeader, hsob, true_and] at hv
        omega
      rcases hout with hlo | hhi
      · simp only [hsob, hlo, ne_eq, not_true_eq_false, if_true, if_false]
      · simp only [hsob, hhi, ne_eq, not_true_eq_false, if_true, ite_self]
    · simp only [hsob, ne_eq, not_false_eq_true, if_true]

theorem msgParse_success_iff (data : List UInt8) (dataSize : ℕ) (msg : Msg) :
    (msgParse data dataSize msg).1 = .success ↔
      ValidHeader data ∧ frameLength data ≤ dataSize ∧
        byteAt data (frameLength data - 1) = msgEob := by
  rw [msgParse_eq]
  by_cases hv : ValidHeader data
  · by_cases hn : dataSize < frameLength data
    · simp [hv, hn]
    · by_cases he : byteAt data (frameLength data - 1) = msgEob
      · simp [hv, hn, he, Nat.le_of_not_lt hn]
      · simp [hv, hn, he]
  · simp [hv]

theorem msgParse_notEnough_iff (data : List UInt8) (dataSize : ℕ) (msg : Msg) :
    (msgParse data dataSize msg).1 = .notEnough ↔
      ValidHeader data ∧ dataSize < frameLength data := by
  rw [msgParse_eq]
  by_cases hv : ValidHeader data
  · by_cases hn : dataSize < frameLength data
    · simp [hv, hn]
    · simp only [hv, hn, if_true, if_false, and_false, iff_false]
      split <;> simp
  · simp [hv]

theorem msgParse_snd_of_success {data : List UInt8} {dataSize : ℕ} {msg : Msg}
    (h : (msgParse data dataSize msg).1 = .success) :
    (msgParse data dataSize msg).2 = parsedMsg data msg := by
  obtain ⟨hv, hn, he⟩ := (msgParse_success_iff data dataSize msg).mp h
  rw [msgParse_eq, if_pos hv, if_neg (by omega), if_pos he]

/-- The verdict does not depend on what the structure held before. -/
theorem msgParse_fst_congr (data : List UInt8) (dataSize : ℕ) (msg msg' : Msg) :
    (msgParse data dataSize msg).1 = (msgParse data dataSize msg').1 := by
  simp only [msgParse_eq]
  split
  · split
    · rfl
    · split <;> rfl
  · rfl

theorem payloadSize_of_success {data : List UInt8} {dataSize : ℕ} {msg : Msg}
    (h : (msgParse data dataSize msg).1 = .success) :
    (msgParse data dataSize msg).2.payloadSize.toNat = frameLength data - 4 := by
  obtain ⟨⟨-, -, hhi⟩, -, -⟩ := (msgParse_success_iff data dataSize msg).mp h
  rw [msgParse_snd_of_success h]
  simp only [parsedMsg, msgLengthToPayload, cmdMaxLength] at *
  rw [UInt8.toNat_ofNat', Nat.mod_eq_of_lt (by omega)]

theorem payloadSize_le_of_success {data : List UInt8} {dataSize : ℕ} {msg : Msg}
    (h : (msgParse data dataSize msg).1 = .success) :
    (msgParse data dataSize msg).2.payloadSize.toNat ≤ maxPayload := by
  obtain ⟨⟨-, -, hhi⟩, -, -⟩ := (msgParse_success_iff data dataSize msg).mp h
  rw [payloadSize_of_success h]
  simp only [cmdMaxLength, maxPayload] at *
  omega

theorem byteAt_take {data : List UInt8} {n i : ℕ} (h : i < n) :
    byteAt (data.take n) i = byteAt data i := by
  simp [byteAt, h]

/-- The parser looks at the `dataSize` bytes only. -/
theorem msgParse_take {data : List UInt8} {n : ℕ} (hn : cmdMinLength ≤ n) (msg : Msg) :
    msgParse (data.take n) n msg = msgParse data n msg := by
  simp only [cmdMinLength] at hn
  have hlength : frameLength (data.take n) = frameLength data := by
    rw [frameLength, frameLength, byteAt_take (by omega)]
  have hvalid : ValidHeader (data.take n) ↔ ValidHeader data := by
    rw [ValidHeader, ValidHeader, hlength, byteAt_take (by omega)]
  rw [msgParse_eq, msgParse_eq, hlength]
  by_cases hv : ValidHeader data
  · by_cases hsize : n < frameLength data
    · simp only [hvalid, hv, hsize, if_true]
    · have hlo := hv.2.1
      simp only [cmdMinLength] at hlo
      have hslice : slice (data.take n) 3 (frameLength data - 4) =
          slice data 3 (frameLength data - 4) := by
        rw [slice, slice, List.drop_take, List.take_take]
        congr 1
        omega
      simp only [hvalid, hv, hsize, if_true, if_false, parsedMsg, msgLengthToPayload, hlength, hslice]
      rw [byteAt_take (by omega), byteAt_take (by omega)]
  · simp only [hvalid, hv, if_false]

/-! ### The parser accepts exactly the frames -/

@[simp] theorem frameLength_encode (m : Message) (tail : List UInt8) :
    frameLength (m.encode ++ tail) = m.length := by
  rw [m.encode_append, frameLength, byteAt_cons_succ, byteAt_cons_zero, m.toNat_lengthByte]

theorem validHeader_encode (m : Message) (tail : List UInt8) :
    ValidHeader (m.encode ++ tail) := by
  refine ⟨?_, ?_, ?_⟩
  · rw [m.encode_append, byteAt_cons_zero]
  · rw [frameLength_encode]
    exact m.length_bounds.1
  · rw [frameLength_encode]
    exact m.length_bounds.2

theorem eob_encode (m : Message) (tail : List UInt8) :
    byteAt (m.encode ++ tail) (m.length - 1) = msgEob := by
  rw [m.encode_append, m.length_eq]
  exact byteAt_append_length m.payload msgEob tail

theorem slice_encode_payload (m : Message) (tail : List UInt8) :
    slice (m.encode ++ tail) 3 m.payload.length = m.payload := by
  rw [m.encode_append]
  simp [slice]

theorem msgParse_encode_fst (m : Message) (tail : List UInt8) {dataSize : ℕ} (msg : Msg)
    (h : m.length ≤ dataSize) : (msgParse (m.encode ++ tail) dataSize msg).1 = .success := by
  rw [msgParse_success_iff, frameLength_encode]
  exact ⟨validHeader_encode m tail, h, eob_encode m tail⟩

/-- A frame in front of any bytes is accepted, and the structure then holds its message. -/
theorem msgParse_encode (m : Message) (tail : List UInt8) {dataSize : ℕ} (msg : Msg)
    (h : m.length ≤ dataSize) : (msgParse (m.encode ++ tail) dataSize msg).2.message = m := by
  have hle : m.payload.length ≤ msg.payload.length := by
    rw [msg.payload_length]
    exact m.size_le
  rw [msgParse_snd_of_success (msgParse_encode_fst m tail msg h)]
  apply Message.ext
  · simp [parsedMsg, m.encode_append]
  · simp only [Msg.message_payload, Msg.bytes, parsedMsg, frameLength_encode, Msg.copyPayload,
      Message.msgLengthToPayload_length, slice_encode_payload, m.toNat_payloadSize]
    exact take_overwrite_zero hle

/-- Accepted bytes are a frame followed by whatever comes after it. -/
theorem eq_encode_of_success {data : List UInt8} {dataSize : ℕ} {msg : Msg}
    (hdata : dataSize ≤ data.length) (h : (msgParse data dataSize msg).1 = .success) :
    ∃ m : Message, m.length ≤ dataSize ∧ data = m.encode ++ data.drop m.length := by
  obtain ⟨⟨hsob, hlo, hhi⟩, hn, he⟩ := (msgParse_success_iff data dataSize msg).mp h
  match data with
  | a :: b :: c :: rest =>
      simp only [frameLength, byteAt_cons_zero, byteAt_cons_succ, List.length_cons, cmdMinLength,
        cmdMaxLength] at *
      obtain ⟨k, hk⟩ : ∃ k, b.toNat = k + 4 := ⟨b.toNat - 4, by omega⟩
      have hklt : k < rest.length := by omega
      have hlast : rest[k] = msgEob := by
        rw [hk, show k + 4 - 1 = k + 1 + 1 + 1 by omega] at he
        simp only [byteAt_cons_succ] at he
        have hget := getElem?_eq_some_byteAt hklt
        rw [List.getElem?_eq_getElem hklt, he] at hget
        exact Option.some.inj hget
      have hpay : (rest.take k).length = k := by
        rw [List.length_take]
        omega
      let m : Message := ⟨c, rest.take k, by simp only [maxPayload]; omega⟩
      have hm : m.length = k + 4 := by
        simp only [m, Message.length_eq, hpay]
      refine ⟨m, by omega, ?_⟩
      have hb : UInt8.ofNat m.length = b := by
        rw [hm, ← hk, UInt8.ofNat_toNat]
      have hsplit : rest = rest.take k ++ msgEob :: rest.drop (k + 1) := by
        rw [← hlast, List.getElem_cons_drop hklt, List.take_append_drop]
      rw [Message.encode_append, hb, hsob, hm]
      simp only [List.drop_succ_cons, m]
      rw [← hsplit]
  | [] | [_] | [_, _] =>
      simp only [List.length_cons, List.length_nil, cmdMinLength] at *
      omega

end AptUsbtrx
