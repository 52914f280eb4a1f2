import AptUsbtrx.Shared.Execution
import AptUsbtrx.Verification.Command.Dispatch

/-! # Commands in flight

Commands, the receive path and a device that answers requests in order, as one transition
system. A URB may end after any byte, so the steps of a command fall between any two
messages that the dispatcher is handed. -/

namespace AptUsbtrx

open Memory Execution

/-- A command that holds or held `send_msg_sem`; `seq` counts them. -/
structure Request where
  seq : ℕ
  cmd : Command
  deriving DecidableEq

/-- A message of the device: the response to a request or a notification. -/
structure Sent where
  origin : Option Request
  message : Message
  deriving DecidableEq

/-- The next step of the command that holds `send_msg_sem`. -/
inductive Stage where
  | setId
  | initCompletion
  | send
  | wait (rounds : List WaitRound)

/-- The command that holds `send_msg_sem`. `outstanding` says whether a response to an
earlier request with the same id was still to come when the completion was initialised. -/
structure Active where
  request : Request
  data : List UInt8
  stage : Stage
  outstanding : Bool

/-- A command that is done, with the result of `apt_usbtrx_wait_msg_timeout` (or of the
failed send) and the bytes stored. -/
structure Finished where
  request : Request
  outstanding : Bool
  waited : Result × List UInt8
  deriving DecidableEq

/-- The driver and the device. `pending` are the requests that the device has not answered,
`wire` the bytes on their way from it, `sent` all its messages and `handed` the number of
them that the dispatcher was handed. -/
structure Session (υ : Type) where
  dev : Dev υ
  sendMsgSem : ℕ
  active : Option Active
  nextSeq : ℕ
  pending : List Request
  wire : List UInt8
  sent : List Sent
  handed : ℕ
  finished : List Finished

inductive Label where
  | down (cmd : Command) (pack : List UInt8) (msg : Msg)
  | setId
  | initCompletion
  | send (taken ok : Bool)
  | allocFailed
  | round (expired : Bool) (msg : Msg) (inTime : Bool)
  | respond (m : Message)
  | notify (m : Message)
  | urb (n : ℕ) (msg : Msg)

namespace Session

variable {υ : Type}

/-- Nothing sent, nothing received. -/
def start (dev : Dev υ) : Session υ := ⟨dev, 1, none, 0, [], [], [], 0, []⟩

/-- The messages that the dispatcher was not handed yet. -/
def inflight (s : Session υ) : List Sent := s.sent.drop s.handed

/-- The requests whose response the dispatcher was not handed yet, in order. -/
def due (s : Session υ) : List Request := s.inflight.filterMap Sent.origin ++ s.pending

/-- `down_interruptible(&dev->send_msg_sem)` returns to the command with the frame `data`. -/
def down (s : Session υ) (cmd : Command) (data : List UInt8) : Session υ :=
  { s with
    sendMsgSem := s.sendMsgSem - 1
    active := some ⟨⟨s.nextSeq, cmd⟩, data, .setId, false⟩
    nextSeq := s.nextSeq + 1 }

/-- `up(&dev->send_msg_sem)` and the return of the command. -/
def finish (s : Session υ) (a : Active) (waited : Result × List UInt8) : Session υ :=
  { s with
    sendMsgSem := s.sendMsgSem + 1
    active := none
    finished := s.finished ++ [⟨a.request, a.outstanding, waited⟩] }

def setId (s : Session υ) (a : Active) : Session υ :=
  { s with
    dev := { s.dev with rxComplete := s.dev.rxComplete.setId a.data }
    active := some { a with stage := .initCompletion } }

def initCompletion (s : Session υ) (a : Active) : Session υ :=
  { s with
    dev := { s.dev with rxComplete := s.dev.rxComplete.initCompletion }
    active := some { a with
      stage := .send
      outstanding := s.due.any fun r => r.cmd.reqCmdId == a.request.cmd.reqCmdId } }

/-- The device takes the request; it may do so although the bulk transfer fails. -/
def take (s : Session υ) (a : Active) (taken : Bool) : Session υ :=
  if taken then { s with pending := s.pending ++ [a.request] } else s

def wait (s : Session υ) (a : Active) (rounds : List WaitRound) : Session υ :=
  { s with active := some { a with stage := .wait rounds } }

/-- `wait_for_completion_timeout` takes a completion unless it expires. -/
def took (s : Session υ) (expired : Bool) : Session υ :=
  if expired then s
  else { s with dev := { s.dev with
    rxComplete := { s.dev.rxComplete with done := s.dev.rxComplete.done - 1 } } }

/-- What a round of the wait gets to see. -/
def waitInput (s : Session υ) (expired : Bool) : WaitInput :=
  if expired then .timeout else .completed s.dev.rxComplete

/-- The device puts a message on the wire. -/
def put (s : Session υ) (x : Sent) : Session υ :=
  { s with wire := s.wire ++ x.message.encode, sent := s.sent ++ [x] }

/-- The first `n` bytes on the wire arrive in one URB. -/
def urb (P : Protocol υ) (s : Session υ) (n : ℕ) (msg : Msg) : Session υ :=
  { s with
    dev := s.dev.readBulkCallback P.dispatch .ok (s.wire.take n) msg
    wire := s.wire.drop n
    handed := s.handed + (handedMessages (dispatchMsg P.dispatch) s.dev s.dev.rxTransfer
      [(s.wire.take n, msg)]).length }

/-- One step. The device answers the requests it has taken in order, each with one message
that names the request; what else it sends names none. -/
def step (P : Protocol υ) (s : Session υ) : Label → Option (Session υ)
  | .down cmd pack msg =>
      if 0 < s.sendMsgSem ∧ cmd ∈ P.commands ∧ (cmd.packRequest pack msg).1 = .success then
        some (s.down cmd (cmd.packRequest pack msg).2)
      else none
  | .setId =>
      match s.active with
      | some ⟨request, data, .setId, outstanding⟩ =>
          some (s.setId ⟨request, data, .setId, outstanding⟩)
      | _ => none
  | .initCompletion =>
      match s.active with
      | some ⟨request, data, .initCompletion, outstanding⟩ =>
          some (s.initCompletion ⟨request, data, .initCompletion, outstanding⟩)
      | _ => none
  | .send taken ok =>
      match s.active with
      | some ⟨request, data, .send, outstanding⟩ =>
          let a := ⟨request, data, .send, outstanding⟩
          if ok then if taken then some ((s.take a taken).wait a []) else none
          else some ((s.take a taken).finish a (.failure, []))
      | _ => none
  | .allocFailed =>
      match s.active with
      | some ⟨request, data, .wait [], outstanding⟩ =>
          some (s.finish ⟨request, data, .wait [], outstanding⟩ (.failure, []))
      | _ => none
  | .round expired msg inTime =>
      match s.active with
      | some ⟨request, data, .wait rounds, outstanding⟩ =>
          let a := ⟨request, data, .wait rounds, outstanding⟩
          let rounds := rounds ++ [⟨s.waitInput expired, msg, inTime⟩]
          if expired = true ↔ s.dev.rxComplete.done = 0 then
            match waitMsgTimeout request.cmd.respCmdIdAck request.cmd.respCmdIdNack rounds with
            | some waited => some ((s.took expired).finish a waited)
            | none => some ((s.took expired).wait a rounds)
          else none
      | _ => none
  | .respond m =>
      match s.pending with
      | request :: pending =>
          if m.WellFormed ∧ P.request m = some request.cmd.reqCmdId then
            some ({ s with pending := pending }.put ⟨some request, m⟩)
          else none
      | [] => none
  | .notify m =>
      if m.WellFormed ∧ P.request m = none then some (s.put ⟨none, m⟩) else none
  | .urb n msg =>
      if n ≤ rxBufferSize ∧ n ≤ s.wire.length then some (s.urb P n msg) else none

/-- What each step requires and does. -/
inductive Step (P : Protocol υ) (s : Session υ) : Label → Session υ → Prop where
  | down {cmd : Command} {pack : List UInt8} {msg : Msg} : 0 < s.sendMsgSem → cmd ∈ P.commands →
      Step P s (.down cmd pack msg) (s.down cmd (cmd.packRequest pack msg).2)
  | setId {a : Active} : s.active = some a → a.stage = .setId → Step P s .setId (s.setId a)
  | initCompletion {a : Active} : s.active = some a → a.stage = .initCompletion →
      Step P s .initCompletion (s.initCompletion a)
  | send {a : Active} : s.active = some a → a.stage = .send →
      Step P s (.send true true) ((s.take a true).wait a [])
  | sendFailed {a : Active} {taken : Bool} : s.active = some a → a.stage = .send →
      Step P s (.send taken false) ((s.take a taken).finish a (.failure, []))
  | allocFailed {a : Active} : s.active = some a → a.stage = .wait [] →
      Step P s .allocFailed (s.finish a (.failure, []))
  | finish {a : Active} {rounds : List WaitRound} {expired : Bool} {msg : Msg} {inTime : Bool}
      {waited : Result × List UInt8} : s.active = some a → a.stage = .wait rounds →
      (expired = true ↔ s.dev.rxComplete.done = 0) →
      waitMsgTimeout a.request.cmd.respCmdIdAck a.request.cmd.respCmdIdNack
        (rounds ++ [⟨s.waitInput expired, msg, inTime⟩]) = some waited →
      Step P s (.round expired msg inTime) ((s.took expired).finish a waited)
  | retry {a : Active} {rounds : List WaitRound} {expired : Bool} {msg : Msg} {inTime : Bool} :
      s.active = some a → a.stage = .wait rounds → (expired = true ↔ s.dev.rxComplete.done = 0) →
      waitMsgTimeout a.request.cmd.respCmdIdAck a.request.cmd.respCmdIdNack
        (rounds ++ [⟨s.waitInput expired, msg, inTime⟩]) = none →
      Step P s (.round expired msg inTime)
        ((s.took expired).wait a (rounds ++ [⟨s.waitInput expired, msg, inTime⟩]))
  | respond {request : Request} {pending : List Request} {m : Message} :
      s.pending = request :: pending → m.WellFormed → P.request m = some request.cmd.reqCmdId →
      Step P s (.respond m) ({ s with pending := pending }.put ⟨some request, m⟩)
  | notify {m : Message} : m.WellFormed → P.request m = none →
      Step P s (.notify m) (s.put ⟨none, m⟩)
  | urb {n : ℕ} {msg : Msg} : n ≤ rxBufferSize → n ≤ s.wire.length →
      Step P s (.urb n msg) (s.urb P n msg)

theorem step_of_eq_some {P : Protocol υ} {s t : Session υ} {l : Label}
    (h : s.step P l = some t) : Step P s l t := by
  cases l with
  | down cmd pack msg =>
      simp only [step] at h
      split at h
      next hguard =>
        cases h
        exact .down hguard.1 hguard.2.1
      next => cases h
  | setId =>
      simp only [step] at h
      split at h
      next hactive =>
        cases h
        exact .setId hactive rfl
      next => cases h
  | initCompletion =>
      simp only [step] at h
      split at h
      next hactive =>
        cases h
        exact .initCompletion hactive rfl
      next => cases h
  | send taken ok =>
      simp only [step] at h
      split at h
      next hactive =>
        cases ok with
        | true =>
            cases taken with
            | true =>
                cases h
                exact .send hactive rfl
            | false => cases h
        | false =>
            cases h
            exact .sendFailed hactive rfl
      next => cases h
  | allocFailed =>
      simp only [step] at h
      split at h
      next hactive =>
        cases h
        exact .allocFailed hactive rfl
      next => cases h
  | round expired msg inTime =>
      simp only [step] at h
      split at h
      next hactive =>
        split at h
        next hguard =>
          split at h
          next waited hwaited =>
            cases h
            exact .finish hactive rfl hguard hwaited
          next hnone =>
            cases h
            exact .retry hactive rfl hguard hnone
        next => cases h
      next => cases h
  | respond m =>
      simp only [step] at h
      split at h
      next hpending =>
        split at h
        next hguard =>
          cases h
          exact .respond hpending hguard.1 hguard.2
        next => cases h
      next => cases h
  | notify m =>
      simp only [step] at h
      split at h
      next hguard =>
        cases h
        exact .notify hguard.1 hguard.2
      next => cases h
  | urb n msg =>
      simp only [step] at h
      split at h
      next hguard =>
        cases h
        exact .urb hguard.1 hguard.2
      next => cases h

end Session

end AptUsbtrx
