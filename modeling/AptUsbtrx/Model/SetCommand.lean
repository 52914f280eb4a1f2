import AptUsbtrx.Model.Command

/-! # Commands that set something

A command function that packs a setting, hands the request to the device and waits for an ACK or a
NACK, as one call. -/

namespace AptUsbtrx

/-- What a call finds out: whether `kzalloc` finds memory for the request and the response, whether
`down_interruptible` and `usb_bulk_msg` succeed, what the wait ends with, and what the structures on
the stack hold. -/
structure SetEnv where
  allocated : Bool
  down : Bool
  sent : Bool
  waited : Result × List UInt8
  reqMsg : Msg
  respMsg : Msg

/-- What a call returns, what it stores in `*success`, and the request that it hands to
`usb_bulk_msg`. -/
structure SetOutcome where
  result : Result
  success : Option Bool
  request : Option (List UInt8)
  deriving DecidableEq

namespace SetOutcome

/-- A call that fails before it sends anything. -/
def notSent : SetOutcome := ⟨.failure, none, none⟩

/-- The check of the callers: `result == RESULT_Success` and `success == true`. -/
def executed (outcome : SetOutcome) : Bool :=
  outcome.result = .success ∧ outcome.success = some true

/-- The payload of the request. -/
def payload (outcome : SetOutcome) : Option (List UInt8) :=
  outcome.request.map fun data => (data.drop 3).take (data.length - 4)

end SetOutcome

/-- The call; `pack` is what the packer stores in the payload, `none` when it fails. -/
def Command.runSet (cmd : Command) (env : SetEnv) (pack : Option (List UInt8)) : SetOutcome :=
  if ¬ env.allocated then .notSent
  else
    match pack with
    | none => .notSent
    | some payload =>
        let (result, data) := cmd.packRequest payload env.reqMsg
        if result ≠ .success then .notSent
        else if ¬ env.down then .notSent
        else if ¬ env.sent then ⟨.failure, none, some data⟩
        else
          let (result, success) := cmd.finishSet env.waited env.respMsg
          ⟨result, success, some data⟩

/-! ### What a call leaves in `rx_complete` -/

/-- The dispatcher completes responses one after another. -/
def RxComplete.completeAll (rx : RxComplete) (answers : List (List UInt8 × Msg)) : RxComplete :=
  answers.foldl (fun rx answer => rx.complete answer.1 answer.2) rx

/-- Where a round of the wait gets its bytes: while the reception is running, the responses that the
dispatcher completes up to the end of the round, and else what `usb_bulk_msg` receives unless it
fails. -/
inductive AnswerSource where
  | reception (answers : List (List UInt8 × Msg))
  | bulk (recv : Option (List UInt8))

/-- A round of the wait, with what the structure on the stack holds and whether
`time_before(jiffies, timeout)` holds after it. -/
structure AnswerRound where
  source : AnswerSource
  msg : Msg
  inTime : Bool

namespace AnswerSource

/-- The responses that are completed. -/
def answers : AnswerSource → List (List UInt8 × Msg)
  | reception answers => answers
  | bulk _ => []

/-- `rx_complete` when the round looks at it. -/
def completed (source : AnswerSource) (rx : RxComplete) : RxComplete :=
  rx.completeAll source.answers

/-- What the round finds. -/
def input (source : AnswerSource) (rx : RxComplete) : WaitInput :=
  match source with
  | reception _ =>
      if 0 < (source.completed rx).done then .completed (source.completed rx) else .timeout
  | bulk (some recv) => .bulk recv
  | bulk none => .bulkError

/-- The completions that are left of `done`: one that was waited for is used up. -/
def unread (source : AnswerSource) (done : ℕ) : ℕ :=
  match source with
  | reception answers => done + answers.length - 1
  | bulk _ => done

/-- `rx_complete` after the round. -/
def leaves (source : AnswerSource) (rx : RxComplete) : RxComplete :=
  { source.completed rx with done := source.unread rx.done }

end AnswerSource

/-- What comes of a request that is handed to `usb_bulk_msg`: it fails, `kzalloc` finds no memory
for the bytes of the response, or there are the rounds of the wait. Responses are completed in the
first two cases as well. -/
inductive SyncExchange where
  | notSent (answers : List (List UInt8 × Msg))
  | noBuffer (answers : List (List UInt8 × Msg))
  | waited (rounds : List AnswerRound)

/-- `apt_usbtrx_wait_msg` in these rounds: what it returns and the `rx_complete` that it leaves,
`none` when it does not return after the last of them. -/
def waitAnswers (ackId nackId : UInt8) :
    List WaitRound → RxComplete → List AnswerRound → Option ((Result × List UInt8) × RxComplete)
  | _, _, [] => none
  | taken, rx, round :: rounds =>
      let taken := taken ++ [⟨round.source.input rx, round.msg, round.inTime⟩]
      match waitMsgTimeout ackId nackId taken with
      | some waited => if rounds.isEmpty then some (waited, round.source.leaves rx) else none
      | none => waitAnswers ackId nackId taken (round.source.leaves rx) rounds

namespace SyncExchange

/-- `apt_usbtrx_send_msg_internal` and `apt_usbtrx_wait_msg`: what the wait returns, if there is
one, and the `rx_complete` that is left. -/
def run (x : SyncExchange) (cmd : Command) (rx : RxComplete) :
    Option (Option (Result × List UInt8) × RxComplete) :=
  match x with
  | notSent answers => some (none, rx.completeAll answers)
  | noBuffer answers => some (some (.failure, []), rx.completeAll answers)
  | waited rounds =>
      (waitAnswers cmd.respCmdIdAck cmd.respCmdIdNack [] rx rounds).map
        fun (result, rx) => (some result, rx)

end SyncExchange

/-- What a call finds out, with all that comes of its request. -/
structure SyncEnv where
  allocated : Bool
  down : Bool
  exchange : SyncExchange
  reqMsg : Msg
  respMsg : Msg

/-- What the call returns once the request `data` was handed over. -/
def Command.finished (cmd : Command) (env : SyncEnv) (data : List UInt8) :
    Option (Result × List UInt8) → SetOutcome
  | none => ⟨.failure, none, some data⟩
  | some waited =>
      let (result, success) := cmd.finishSet waited env.respMsg
      ⟨result, success, some data⟩

/-- The call with its stores in `rx_complete`; `none` when the wait does not return after the rounds
given. -/
def Command.runSetSync (cmd : Command) (env : SyncEnv) (rx : RxComplete)
    (pack : Option (List UInt8)) : Option (SetOutcome × RxComplete) :=
  if ¬ env.allocated then some (.notSent, rx)
  else
    match pack with
    | none => some (.notSent, rx)
    | some payload =>
        let (result, data) := cmd.packRequest payload env.reqMsg
        if result ≠ .success then some (.notSent, rx)
        else if ¬ env.down then some (.notSent, rx)
        else
          (env.exchange.run cmd (rx.setId data).initCompletion).map
            fun (waited, rx) => (cmd.finished env data waited, rx)

end AptUsbtrx
