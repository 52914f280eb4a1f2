import AptUsbtrx.Model.SetCommand
import AptUsbtrx.Verification.Command.Response

/-! # What a set command sends

The request of a call, and when there is one. -/

namespace AptUsbtrx

open Memory

namespace Command

variable {cmd : Command} {env : SetEnv} {payload : List UInt8}

/-- The lengths of the message and of its payload are those of the command. -/
structure Fits (cmd : Command) (payload : List UInt8) : Prop where
  min : cmdMinLength ≤ cmd.reqDataSize
  max : cmd.reqDataSize ≤ cmdMaxLength
  length : payload.length = msgLengthToPayload cmd.reqDataSize

/-- The call by what it finds out. -/
theorem runSet_eq (h : cmd.Fits payload) (env : SetEnv) :
    ∃ m : Message, m.id = cmd.reqCmdId ∧ m.payload = payload ∧
      cmd.runSet env (some payload) =
        if env.allocated ∧ env.down then
          if env.sent then
            ⟨(cmd.finishSet env.waited env.respMsg).1, (cmd.finishSet env.waited env.respMsg).2,
              some m.encode⟩
          else ⟨.failure, none, some m.encode⟩
        else .notSent := by
  obtain ⟨m, hid, hpayload, hframe⟩ := packRequest_spec h.min h.max payload env.reqMsg
  have hle : payload.length ≤ env.reqMsg.payload.length := by
    have hmax := h.max
    rw [h.length, env.reqMsg.payload_length]
    simp only [msgLengthToPayload, cmdMaxLength, maxPayload] at *
    omega
  refine ⟨m, hid, ?_, ?_⟩
  · rw [hpayload, ← msgLengthToPayload, ← h.length, take_overwrite_zero hle]
  · rw [runSet]
    dsimp only
    rw [hframe]
    cases env.allocated <;> cases env.down <;> cases env.sent <;> rfl

theorem payload_encode (m : Message) (result : Result) (success : Option Bool) :
    SetOutcome.payload ⟨result, success, some m.encode⟩ = some m.payload := by
  have hlength : m.encode.length - 4 = m.payload.length := by
    rw [Message.encode_length, Message.length_eq, Nat.add_sub_cancel]
  rw [SetOutcome.payload, Option.map_some, hlength]
  exact congrArg some List.take_left

/-- The payload reaches `usb_bulk_msg` as the packer has written it, or nothing does. -/
theorem payload_runSet (h : cmd.Fits payload) (env : SetEnv) :
    (cmd.runSet env (some payload)).payload =
      if env.allocated ∧ env.down then some payload else none := by
  obtain ⟨m, -, rfl, hrun⟩ := runSet_eq h env
  rw [hrun]
  by_cases hsent : env.allocated ∧ env.down
  · rw [if_pos hsent, if_pos hsent]
    split <;> exact payload_encode m _ _
  · rw [if_neg hsent, if_neg hsent]
    rfl

end Command

end AptUsbtrx
