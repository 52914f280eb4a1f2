import AptUsbtrx.Model.Ep1Cf02aSet
import AptUsbtrx.Model.Transmission

/-! # An EP1-CF02A unit at the other end

The command functions with the link to a unit: a request waits until the unit takes it, its answer
waits until it arrives, and either may be late or get lost. -/

namespace AptUsbtrx

open Memory

namespace Ep1Cf02a

/-! ### Requests -/

/-- What the get functions read. -/
inductive Readable where
  | value (setting : Setting)
  | canClock
  | resetTime
  | storeDataState
  deriving DecidableEq

namespace Readable

/-- The function `ep1_cf02a_get_..`. -/
def getCmd : Readable → GetCmd
  | value setting => setting.getCmd
  | canClock => .canClock
  | resetTime => .deviceTimestampResetTime
  | storeDataState => .currentStoreDataState

/-- The request of the function. -/
def request (r : Readable) : List UInt8 := frame r.getCmd.command.reqCmdId []

end Readable

/-- The request of `ep1_cf02a_set_..` with this payload. -/
def Setting.request (setting : Setting) (payload : List UInt8) : List UInt8 :=
  frame setting.command.reqCmdId payload

/-! ### The link -/

/-- The firmware of a unit, which is not part of the repository: how it takes a request, with the
bytes of its answer, and what becomes of the unit by itself. -/
structure Firmware (κ : Type) where
  serve : κ → List UInt8 → κ × List UInt8
  elapse : κ → ℕ → κ

/-- The payload of a frame. -/
def framePayload (bytes : List UInt8) : List UInt8 := slice bytes 3 (bytes.length - 4)

/-- What the unit would report: the payload of its answer to a get request. -/
def Firmware.report {κ : Type} (firmware : Firmware κ) (unit : κ) (r : Readable) : List UInt8 :=
  framePayload (firmware.serve unit r.request).2

/-- An answer, and the request that it is the answer to. -/
structure Answer where
  request : List UInt8
  bytes : List UInt8

/-- The unit, the requests that it has not taken and the answers that have not arrived, in order. -/
structure Link (κ : Type) where
  unit : κ
  requests : List (List UInt8)
  answers : List Answer

/-- The request has this command id. -/
def HasId (cmdId : UInt8) (request : List UInt8) : Prop := byteAt request 2 = cmdId

instance (cmdId : UInt8) (request : List UInt8) : Decidable (HasId cmdId request) :=
  inferInstanceAs (Decidable (_ = _))

/-- A request of the command is unanswered: it is not taken, or its answer is under way. -/
def Link.Outstanding {κ : Type} (link : Link κ) (cmdId : UInt8) : Prop :=
  (∃ request ∈ link.requests, HasId cmdId request) ∨
    ∃ answer ∈ link.answers, HasId cmdId answer.request

instance {κ : Type} (link : Link κ) (cmdId : UInt8) : Decidable (link.Outstanding cmdId) :=
  inferInstanceAs (Decidable (_ ∨ _))

/-- The unit takes a request or ignores it, time passes, an answer arrives or is lost. Notifications
complete no call and are left out. -/
inductive LinkEvent where
  | serve
  | ignore
  | elapse (n : ℕ)
  | arrive
  | lose

/-- A request that the unit may have got: its command, whether an earlier one of this command was
unanswered, and whether the call was given an answer. -/
structure Handover where
  cmdId : UInt8
  outstanding : Bool
  answered : Bool
  deriving DecidableEq

/-- The device, the link and the requests handed over so far. -/
structure ConfigSystem (κ : Type) where
  dev : Dev UniqueData
  link : Link κ
  log : List Handover

namespace ConfigSystem

variable {κ : Type}

def setRxComplete (s : ConfigSystem κ) (rx : RxComplete) : ConfigSystem κ :=
  { s with dev := { s.dev with rxComplete := rx } }

def setUniqueData (s : ConfigSystem κ) (uniqueData : UniqueData) : ConfigSystem κ :=
  { s with dev := { s.dev with uniqueData := uniqueData } }

/-- The receive path hands a frame to the dispatcher. -/
def receive (s : ConfigSystem κ) (bytes : List UInt8) : ConfigSystem κ :=
  let (result, msg) := msgParse bytes bytes.length Msg.zero
  if result ≠ .success then s
  else { s with dev := (AptUsbtrx.dispatchMsg dispatchMsg s.dev bytes msg).1 }

def event (firmware : Firmware κ) (s : ConfigSystem κ) : LinkEvent → ConfigSystem κ
  | .serve =>
      match s.link.requests with
      | [] => s
      | request :: requests =>
          let (unit, bytes) := firmware.serve s.link.unit request
          { s with link := ⟨unit, requests, s.link.answers ++ [⟨request, bytes⟩]⟩ }
  | .ignore => { s with link := { s.link with requests := s.link.requests.tail } }
  | .elapse n => { s with link := { s.link with unit := firmware.elapse s.link.unit n } }
  | .arrive =>
      match s.link.answers with
      | [] => s
      | answer :: answers =>
          { s with link := { s.link with answers := answers } }.receive answer.bytes
  | .lose => { s with link := { s.link with answers := s.link.answers.tail } }

/-- The request waits to be taken. -/
def post (s : ConfigSystem κ) (data : List UInt8) : ConfigSystem κ :=
  { s with link := { s.link with requests := s.link.requests ++ [data] } }

def record (s : ConfigSystem κ) (handover : Handover) : ConfigSystem κ :=
  { s with log := s.log ++ [handover] }

end ConfigSystem

/-! ### The command functions -/

/-- A round of the wait: what happens until the completion is signalled or the time is up, what the
structure on the stack holds and whether `time_before(jiffies, timeout)` holds after it. -/
structure LinkRound where
  events : List LinkEvent
  msg : Msg
  inTime : Bool

/-- What a call of a command function meets: whether `kzalloc` and `down_interruptible` succeed and
`usb_bulk_msg` sends the request, whether the unit may get it although the transfer fails, whether
`kzalloc` succeeds in the wait, its rounds, and what the structures on the stack hold. -/
structure Exchange where
  allocated : Bool
  down : Bool
  sent : Bool
  got : Bool
  bufAllocated : Bool
  rounds : List LinkRound
  reqMsg : Msg
  respMsg : Msg

namespace ConfigSystem

variable {κ : Type}

/-- `apt_usbtrx_wait_msg_timeout` with the buffer `buf`; the reception is running. After the last
round the time is up. -/
def wait (firmware : Firmware κ) (cmd : Command) :
    ConfigSystem κ → List UInt8 → List LinkRound → (Result × List UInt8) × ConfigSystem κ
  | s, _, [] => ((.timeout, []), s)
  | s, buf, round :: rounds =>
      let s := round.events.foldl (event firmware) s
      let rx := s.dev.rxComplete
      if rx.done = 0 then ((.timeout, []), s)
      else
        let s := s.setRxComplete { rx with done := rx.done - 1 }
        let buf := rx.copyTo buf
        match waitMsgRound cmd.respCmdIdAck cmd.respCmdIdNack buf rx.bufferSize round.msg with
        | some data => ((.success, data), s)
        | none =>
            if round.inTime then wait firmware cmd s buf rounds else ((.failure, []), s)

/-- `apt_usbtrx_send_msg_sync` from `dev->rx_complete.id = data[2]` on, and the wait. -/
def exchange (firmware : Firmware κ) (s : ConfigSystem κ) (x : Exchange) (cmd : Command)
    (data : List UInt8) : (Result × List UInt8) × ConfigSystem κ :=
  let s := s.setRxComplete (s.dev.rxComplete.setId data).initCompletion
  let cmdId := byteAt data 2
  let outstanding : Bool := s.link.Outstanding cmdId
  if ¬ x.sent then
    ((.failure, []), if x.got then (s.post data).record ⟨cmdId, outstanding, false⟩ else s)
  else
    let (waited, s) :=
      if x.bufAllocated then
        (s.post data).wait firmware cmd (List.replicate rxBufferSize 0) x.rounds
      else ((.failure, []), s.post data)
    (waited, s.record ⟨cmdId, outstanding, waited.1 = .success⟩)

/-- `ep1_cf02a_cmd_common` up to the wait: what it returns when it gets that far. -/
def request (firmware : Firmware κ) (s : ConfigSystem κ) (x : Exchange) (cmd : Command)
    (pack : List UInt8) : Option (Result × List UInt8) × ConfigSystem κ :=
  if ¬ x.allocated then (none, s)
  else
    let (result, data) := cmd.packRequest pack x.reqMsg
    if result ≠ .success then (none, s)
    else if ¬ x.down then (none, s)
    else
      let (waited, s) := s.exchange firmware x cmd data
      (some waited, s)

/-- `ep1_cf02a_set_common`: whether the callers see a success. -/
def setCommand (firmware : Firmware κ) (s : ConfigSystem κ) (x : Exchange) (cmd : Command)
    (pack : List UInt8) : Bool × ConfigSystem κ :=
  match s.request firmware x cmd pack with
  | (none, s) => (false, s)
  | (some waited, s) => (cmd.finishSet waited x.respMsg = (.success, some true), s)

/-- The functions `ep1_cf02a_get_..`: the output, `none` when they fail. -/
def get (firmware : Firmware κ) (s : ConfigSystem κ) (x : Exchange) (r : Readable) :
    Option r.getCmd.Output × ConfigSystem κ :=
  match s.request firmware x r.getCmd.command r.getCmd.packReq with
  | (none, s) => (none, s)
  | (some waited, s) =>
      let (_, output, uniqueData) := r.getCmd.finish waited x.respMsg s.dev.uniqueData
      (output, s.setUniqueData uniqueData)

end ConfigSystem

end Ep1Cf02a

end AptUsbtrx
