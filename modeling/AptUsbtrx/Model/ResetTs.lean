import AptUsbtrx.Model.SendMsg

/-! # Resets of the timestamp

`apt_usbtrx_reset_ts` on the devices that share `g_resettime`, and the dispatch of what they
answer. -/

namespace AptUsbtrx

/-- What `apt_usbtrx_reset_ts` packs and waits for. -/
def resetTs : Command := ⟨cmdResetTS, 4, cmdLengthACK, cmdACK, cmdNACK⟩

/-- A call of `apt_usbtrx_reset_ts`: the command, the time `ts` once `get_ts64` has returned,
whether it is stored in `*dev->resettime`, and whether its request is with the device. -/
structure ResetCall where
  call : CmdCall
  ts : Option Timespec64
  stored : Bool
  outstanding : Bool

/-- A device with its `send_msg_sem`. -/
structure ResetDev (υ : Type) where
  dev : Dev υ
  sendMsgSem : ℕ

/-- The devices `δ` and the calls `ι`; all devices have the same `resettime`. -/
structure ResetSystem (υ δ ι : Type) where
  resettime : Timespec64
  devs : δ → ResetDev υ
  calls : ι → ResetCall

/-- `get_ts64`, the store of the time, another statement of a call, the dispatch of the answer to a
call, and the dispatch of any other message. -/
inductive ResetLabel (δ ι : Type) where
  | getTs (i : ι) (now : Timespec64)
  | setResettime (i : ι)
  | call (i : ι) (label : CmdLabel)
  | answer (i : ι) (data : List UInt8) (msg : Msg)
  | dispatch (d : δ) (data : List UInt8) (msg : Msg)

/-- The statements in front of `get_ts64` are done and those behind it are not begun. -/
def CmdPc.samples : CmdPc → Bool
  | pack => true
  | _ => false

/-- The statement hands the request to the device. -/
def CmdCall.sends (call : CmdCall) : CmdLabel → Bool
  | .advance ok =>
      match call.pc with
      | .send => ok
      | _ => false
  | _ => false

/-- An ACK or a NACK for `ResetTS`. -/
def answersResetTs (msg : Msg) : Bool :=
  (msg.id = cmdACK ∨ msg.id = cmdNACK) ∧ (msgParseAck msg.payload).2 = cmdResetTS

namespace ResetDev

variable {υ : Type}

/-- What the command functions of a device share. -/
def channel (d : ResetDev υ) : MsgChannel := ⟨d.sendMsgSem, d.dev.rxComplete, d.dev.rxOngoing⟩

def setChannel (d : ResetDev υ) (ch : MsgChannel) : ResetDev υ :=
  ⟨{ d.dev with rxComplete := ch.rxComplete, rxOngoing := ch.rxOngoing }, ch.sendMsgSem⟩

/-- `apt_usbtrx_dispatch_msg` while `*dev->resettime` is the time given. -/
def dispatch (uniqueDispatch : Dispatch (Dev υ)) (resettime : Timespec64) (d : ResetDev υ)
    (data : List UInt8) (msg : Msg) : ResetDev υ :=
  { d with dev := (dispatchMsg uniqueDispatch { d.dev with resettime := resettime } data msg).1 }

end ResetDev

namespace ResetSystem

variable {υ δ ι : Type} [DecidableEq δ] [DecidableEq ι]

/-- No call has run a statement. -/
def start (resettime : Timespec64) (devs : δ → Dev υ) : ResetSystem υ δ ι :=
  ⟨resettime, fun d => ⟨devs d, 1⟩, fun _ =>
    ⟨(CmdCall.start resetTs).goto .allocReq, none, false, false⟩⟩

/-- One step; `device` tells which device a call is for. -/
def step (device : ι → δ) (uniqueDispatch : Dispatch (Dev υ)) (s : ResetSystem υ δ ι) :
    ResetLabel δ ι → Option (ResetSystem υ δ ι)
  | .getTs i now =>
      let call := s.calls i
      if call.call.pc.samples ∧ call.ts.isNone then
        some { s with calls := Function.update s.calls i { call with ts := some now } }
      else none
  | .setResettime i =>
      let call := s.calls i
      match call.ts with
      | some ts =>
          if call.stored then none
          else some { s with
            resettime := ts
            calls := Function.update s.calls i { call with stored := true } }
      | none => none
  | .call i label =>
      let call := s.calls i
      if call.call.pc.samples ∧ ¬ call.stored then none
      else
        (call.call.step (s.devs (device i)).channel label).map fun (channel, next) =>
          { s with
            devs := Function.update s.devs (device i) ((s.devs (device i)).setChannel channel)
            calls := Function.update s.calls i { call with
              call := next
              outstanding := call.outstanding || call.call.sends label } }
  | .answer i data msg =>
      let call := s.calls i
      if call.outstanding ∧ (s.devs (device i)).dev.rxOngoing ∧ answersResetTs msg then
        some { s with
          devs := Function.update s.devs (device i)
            ((s.devs (device i)).dispatch uniqueDispatch s.resettime data msg)
          calls := Function.update s.calls i { call with outstanding := false } }
      else none
  | .dispatch d data msg =>
      if answersResetTs msg then none
      else some { s with
        devs := Function.update s.devs d
          ((s.devs d).dispatch uniqueDispatch s.resettime data msg) }

end ResetSystem

end AptUsbtrx
