import AptUsbtrx.Verification.Command.Wait

/-! # The two ends of a command

The frame of the request, and what the command decodes from the bytes stored by the wait. -/

namespace AptUsbtrx

open Memory

namespace Message

theorem byteAt_encode_two (m : Message) : byteAt m.encode 2 = m.id := rfl

end Message

namespace Command

variable {cmd : Command}

/-- The frame of a request, with the payload that stands in the structure. -/
theorem packRequest_spec (hmin : cmdMinLength ≤ cmd.reqDataSize)
    (hmax : cmd.reqDataSize ≤ cmdMaxLength) (pack : List UInt8) (msg : Msg) :
    ∃ m : Message, m.id = cmd.reqCmdId ∧
      m.payload = (overwrite msg.payload 0 pack).take (cmd.reqDataSize - 4) ∧
        cmd.packRequest pack msg = (.success, m.encode) := by
  simp only [cmdMinLength, cmdMaxLength] at hmin hmax
  let reqMsg : Msg := { msg.copyPayload pack with
    id := cmd.reqCmdId
    payloadSize := UInt8.ofNat (msgLengthToPayload cmd.reqDataSize) }
  have hsize : reqMsg.payloadSize.toNat = cmd.reqDataSize - 4 := by
    change (UInt8.ofNat (cmd.reqDataSize - 4)).toNat = cmd.reqDataSize - 4
    rw [UInt8.toNat_ofNat', Nat.mod_eq_of_lt (by omega)]
  have hle : reqMsg.payloadSize.toNat ≤ maxPayload := by
    rw [hsize]
    simp only [maxPayload]
    omega
  have htotal : payloadLengthToMsg reqMsg.payloadSize.toNat = cmd.reqDataSize := by
    rw [hsize, payloadLengthToMsg]
    omega
  have hlen : reqMsg.message.encode.length = (List.replicate cmd.reqDataSize (0 : UInt8)).length := by
    rw [Message.encode_length, Msg.length_message hle, htotal, List.length_replicate]
  have hpack : msgPack reqMsg (List.replicate cmd.reqDataSize 0) cmd.reqDataSize =
      (.success, overwrite (List.replicate cmd.reqDataSize 0) 0 reqMsg.message.encode) :=
    msgPack_eq hle (Nat.le_of_eq htotal)
  rw [overwrite_eq_self hlen] at hpack
  exact ⟨reqMsg.message, rfl, congrArg (List.take · _) hsize, hpack⟩

/-- The frame of a request. -/
theorem packRequest_eq (hmin : cmdMinLength ≤ cmd.reqDataSize)
    (hmax : cmd.reqDataSize ≤ cmdMaxLength) (pack : List UInt8) (msg : Msg) :
    ∃ m : Message, m.id = cmd.reqCmdId ∧ cmd.packRequest pack msg = (.success, m.encode) := by
  obtain ⟨m, hid, -, hframe⟩ := packRequest_spec hmin hmax pack msg
  exact ⟨m, hid, hframe⟩

/-- A response of the expected length is parsed as it is. -/
theorem parseResponse_encode {m : Message} (hm : m.length = cmd.respDataSize) (msg : Msg) :
    (cmd.parseResponse m.encode msg).1 = .success ∧
      (cmd.parseResponse m.encode msg).2.message = m := by
  have hlen : m.encode.length = (List.replicate cmd.respDataSize (0 : UInt8)).length := by
    rw [Message.encode_length, hm, List.length_replicate]
  rw [parseResponse, overwrite_eq_self hlen, ← List.append_nil m.encode]
  exact ⟨msgParse_encode_fst m [] msg (Nat.le_of_eq hm), msgParse_encode m [] msg (Nat.le_of_eq hm)⟩

/-- Whatever length was stored, a frame parsed from the start of the completion buffer is
the one that is there: the zeros behind the stored bytes do not complete a frame. -/
theorem parseResponse_take {m : Message} {tail : List UInt8} {k : ℕ} {msg : Msg}
    (h : (cmd.parseResponse ((m.encode ++ tail).take k) msg).1 = .success) :
    (cmd.parseResponse ((m.encode ++ tail).take k) msg).2.message = m := by
  let stored := (m.encode ++ tail).take k
  let data := overwrite (List.replicate cmd.respDataSize 0) 0 stored
  have hdata : data.length = cmd.respDataSize :=
    (length_overwrite _ _ _).trans List.length_replicate
  have hget (i : ℕ) (hi : i < cmd.respDataSize) :
      data[i]? = if i < stored.length then stored[i]? else some 0 := by
    rw [getElem?_overwrite]
    simp [hi]
  obtain ⟨m', hm', heq⟩ := eq_encode_of_success (Nat.le_of_eq hdata.symm) h
  have hmessage : (cmd.parseResponse stored msg).2.message = m' := by
    rw [parseResponse, show overwrite _ 0 stored = m'.encode ++ _ from heq]
    exact msgParse_encode m' _ msg hm'
  have hpos := m'.length_pos
  have hstored : m'.length ≤ stored.length := by
    by_contra hlong
    have heob : byteAt data (m'.length - 1) = msgEob := by
      rw [show data = m'.encode ++ _ from heq]
      exact eob_encode m' _
    have hzero := hget (m'.length - 1) (by omega)
    rw [if_neg (by omega), getElem?_eq_some_byteAt (by omega), heob] at hzero
    cases hzero
  have hfront : m.encode ++ tail = m'.encode ++ (m.encode ++ tail).drop m'.length := by
    conv_lhs => rw [← List.take_append_drop m'.length (m.encode ++ tail)]
    congr 1
    have hlen : stored.length = min k (m.encode ++ tail).length := List.length_take
    have henc : m'.encode = data.take m'.length := by
      rw [show data = m'.encode ++ _ from heq, ← m'.encode_length, List.take_left]
    rw [henc]
    apply List.ext_getElem?
    intro i
    rw [List.getElem?_take, List.getElem?_take]
    by_cases hi : i < m'.length
    · rw [if_pos hi, if_pos hi, hget i (by omega), if_pos (by omega), List.getElem?_take,
        if_pos (by omega)]
    · rw [if_neg hi, if_neg hi]
  exact hmessage.trans (Message.encode_append_inj hfront).1.symm

/-! ### What a successful command decodes -/

/-- The message that a command decodes when it gets that far. -/
def response (cmd : Command) (waited : Result × List UInt8) (msg : Msg) : Option Msg :=
  if waited.1 = .success ∧ (cmd.parseResponse waited.2 msg).1 = .success then
    some (cmd.parseResponse waited.2 msg).2
  else none

theorem response_encode {m : Message} (hm : m.length = cmd.respDataSize) (msg : Msg) :
    ∃ respMsg, cmd.response (.success, m.encode) msg = some respMsg ∧ respMsg.message = m := by
  obtain ⟨hsuccess, hmessage⟩ := parseResponse_encode hm msg
  exact ⟨_, if_pos ⟨rfl, hsuccess⟩, hmessage⟩

theorem finishGet_eq {β : Type} (parseResp : List UInt8 → β) (waited : Result × List UInt8)
    (msg : Msg) : cmd.finishGet parseResp waited msg =
      match cmd.response waited msg with
      | some respMsg => (.success, some (parseResp respMsg.payload))
      | none => (.failure, none) := by
  rw [finishGet, response]
  by_cases hwaited : waited.1 = .success
  · by_cases hparse : (cmd.parseResponse waited.2 msg).1 = .success
    · simp [hwaited, hparse]
    · simp [hwaited, hparse]
  · simp [hwaited]

end Command

end AptUsbtrx
