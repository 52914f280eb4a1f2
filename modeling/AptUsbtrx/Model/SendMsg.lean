import AptUsbtrx.Model.Command
import AptUsbtrx.Model.Ep1Cf02a
import Mathlib.Logic.Function.Basic

/-! # Command functions of several callers

A command function statement by statement: `ep1_cf02a_cmd_common`, and the functions of
`apt_usbtrx_cmd.c` and of the other units, which are written the same way. The callers share
`send_msg_sem` and `rx_complete`. -/

namespace AptUsbtrx

open Memory

/-- The statement a command function is about to run. `upAfterSend` and `upAfterWait` are the
`up` of `apt_usbtrx_send_msg_sync` and that of `apt_usbtrx_wait_msg_timeout`. -/
inductive CmdPc where
  | checkArgs
  | allocReq
  | allocResp
  | pack
  | down
  | setId
  | initCompletion
  | send
  | upAfterSend
  | allocBuf
  | wait (rounds : List WaitRound)
  | upAfterWait (waited : Result × List UInt8)
  | parse (stored : List UInt8)
  | returned (result : Result)

/-- A call of a command function. `downs` and `ups` count what it did to `send_msg_sem`. -/
structure CmdCall where
  cmd : Command
  reqData : List UInt8
  pc : CmdPc
  downs : ℕ
  ups : ℕ

/-- What the callers share. -/
structure MsgChannel where
  sendMsgSem : ℕ
  rxComplete : RxComplete
  rxOngoing : Bool

/-- What a statement finds out: whether it succeeds, what the structures on the stack hold, and
how a round of the wait gets its bytes. -/
inductive CmdLabel where
  | advance (ok : Bool)
  | pack (ok : Bool) (payload : List UInt8) (msg : Msg)
  | round (input : WaitInput) (msg : Msg) (inTime : Bool)
  | parse (ok : Bool) (msg : Msg)

/-- The round of the wait can get its bytes this way. -/
def MsgChannel.offers (ch : MsgChannel) : WaitInput → Bool
  | .timeout => ch.rxOngoing
  | .completed rx => ch.rxOngoing && decide (0 < ch.rxComplete.done ∧ rx = ch.rxComplete)
  | .bulkError | .bulk _ => !ch.rxOngoing

/-- A completion that is waited for successfully is used up. -/
def MsgChannel.consume (ch : MsgChannel) : WaitInput → MsgChannel
  | .completed _ =>
      { ch with rxComplete := { ch.rxComplete with done := ch.rxComplete.done - 1 } }
  | _ => ch

def MsgChannel.up (ch : MsgChannel) : MsgChannel := { ch with sendMsgSem := ch.sendMsgSem + 1 }

namespace CmdCall

/-- The call before its first statement. -/
def start (cmd : Command) : CmdCall := ⟨cmd, [], .checkArgs, 0, 0⟩

def goto (call : CmdCall) (pc : CmdPc) : CmdCall := { call with pc := pc }

def fail (call : CmdCall) : CmdCall := call.goto (.returned .failure)

/-- What the function returns when the wait ends without a response: `apt_usbtrx_reset_ts` tells
a timeout from a failure. -/
def waitFailed (cmd : Command) (result : Result) : Result :=
  if cmd.reqCmdId = cmdResetTS ∧ result = .timeout then .timeout else .failure

/-- The result of the re-parse; `ok` is that of `parse_resp`. -/
def parsed (cmd : Command) (stored : List UInt8) (ok : Bool) (msg : Msg) : Result :=
  if cmd.respCmdIdAck = cmdACK then (cmd.finishSet (.success, stored) msg).1
  else if ok then (cmd.finishGet (fun payload => payload) (.success, stored) msg).1
  else .failure

/-- One statement of the function. -/
def step (ch : MsgChannel) (call : CmdCall) : CmdLabel → Option (MsgChannel × CmdCall)
  | .advance ok =>
      match call.pc with
      | .checkArgs => some (ch, if ok then call.goto .allocReq else call.fail)
      | .allocReq => some (ch, if ok then call.goto .allocResp else call.fail)
      | .allocResp => some (ch, if ok then call.goto .pack else call.fail)
      | .down =>
          -- a signal interrupts `down_interruptible`
          if ¬ ok then some (ch, call.fail)
          else if ch.sendMsgSem > 0 then
            some ({ ch with sendMsgSem := ch.sendMsgSem - 1 },
              { call with pc := .setId, downs := call.downs + 1 })
          else none
      | .setId =>
          some ({ ch with rxComplete := ch.rxComplete.setId call.reqData },
            call.goto .initCompletion)
      | .initCompletion =>
          some ({ ch with rxComplete := ch.rxComplete.initCompletion }, call.goto .send)
      | .send => some (ch, call.goto (if ok then .allocBuf else .upAfterSend))
      | .upAfterSend => some (ch.up, { call.fail with ups := call.ups + 1 })
      | .allocBuf => some (ch, call.goto (if ok then .wait [] else .upAfterWait (.failure, [])))
      | .upAfterWait waited =>
          some (ch.up,
            { call with
              pc :=
                if waited.1 = .success then .parse waited.2
                else .returned (waitFailed call.cmd waited.1)
              ups := call.ups + 1 })
      | _ => none
  | .pack ok payload msg =>
      match call.pc with
      | .pack =>
          if ¬ ok then some (ch, call.fail)
          else
            let (result, data) := call.cmd.packRequest payload msg
            if result ≠ .success then some (ch, call.fail)
            else some (ch, { call with pc := .down, reqData := data })
      | _ => none
  | .round input msg inTime =>
      match call.pc with
      | .wait rounds =>
          if ch.offers input then
            let rounds := rounds ++ [⟨input, msg, inTime⟩]
            match waitMsgTimeout call.cmd.respCmdIdAck call.cmd.respCmdIdNack rounds with
            | some waited => some (ch.consume input, call.goto (.upAfterWait waited))
            | none => some (ch.consume input, call.goto (.wait rounds))
          else none
      | _ => none
  | .parse ok msg =>
      match call.pc with
      | .parse stored => some (ch, call.goto (.returned (parsed call.cmd stored ok msg)))
      | _ => none

end CmdCall

/-- Callers `ι`, each in one call of a command function. -/
structure CmdSystem (ι : Type) where
  channel : MsgChannel
  calls : ι → CmdCall

/-- A statement of a caller, a response that the dispatcher completes, or the reception being
started or stopped. -/
inductive SystemLabel (ι : Type) where
  | call (i : ι) (label : CmdLabel)
  | complete (data : List UInt8) (msg : Msg)
  | setRxOngoing (ongoing : Bool)

namespace CmdSystem

variable {ι : Type} [DecidableEq ι]

/-- The device after `apt_usbtrx_init_instance`; no caller has run a statement. -/
def start (rx : RxComplete) (ongoing : Bool) (cmds : ι → Command) : CmdSystem ι :=
  ⟨⟨1, rx, ongoing⟩, fun i => CmdCall.start (cmds i)⟩

def step (s : CmdSystem ι) : SystemLabel ι → Option (CmdSystem ι)
  | .call i label =>
      ((s.calls i).step s.channel label).map fun (channel, call) =>
        ⟨channel, Function.update s.calls i call⟩
  | .complete data msg =>
      if s.channel.rxOngoing then
        some { s with channel := { s.channel with
          rxComplete := s.channel.rxComplete.complete data msg } }
      else none
  | .setRxOngoing ongoing =>
      some { s with channel := { s.channel with rxOngoing := ongoing } }

end CmdSystem

end AptUsbtrx
