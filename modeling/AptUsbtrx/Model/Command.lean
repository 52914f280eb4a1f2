import AptUsbtrx.Model.Receive

/-! # Synchronous commands

`apt_usbtrx_send_msg_sync`, `apt_usbtrx_wait_msg_timeout` and the two ends of a command
function: packing the request and decoding the response. -/

namespace AptUsbtrx

open Memory

/-! ### `apt_usbtrx_wait_msg_timeout` -/

/-- `while (pos < recv_size)`: the first frame with one of the two ids. `fuel` bounds the
rounds, `msg` is what the structure on the stack holds. -/
def waitMsgLoop (ackId nackId : UInt8) (buf : List UInt8) (recvSize : ℕ) :
    ℕ → ℕ → Msg → Option Msg
  | 0, _, _ => none
  | fuel + 1, pos, msg =>
      if pos < recvSize then
        let (result, msg) := msgParse (buf.drop pos) (recvSize - pos) msg
        if result ≠ .success then waitMsgLoop ackId nackId buf recvSize fuel (pos + 1) msg
        else if msg.id = ackId then some msg
        else if msg.id = nackId then some msg
        else waitMsgLoop ackId nackId buf recvSize fuel
          (pos + payloadLengthToMsg msg.payloadSize.toNat) msg
      else none

/-- The bytes `memcpy(data, buf, ..)` stores in the caller's buffer when the loop accepts a
frame. -/
def waitMsgRound (ackId nackId : UInt8) (buf : List UInt8) (recvSize : ℕ) (msg : Msg) :
    Option (List UInt8) :=
  (waitMsgLoop ackId nackId buf recvSize recvSize 0 msg).map fun msg =>
    slice buf 0 (payloadLengthToMsg msg.payloadSize.toNat)

/-- The buffer of a round after `memcpy(buf, dev->rx_complete.buffer, recv_size)`. -/
def RxComplete.copyTo (rx : RxComplete) (buf : List UInt8) : List UInt8 :=
  overwrite buf 0 (slice rx.buffer 0 rx.bufferSize)

/-- How a round of the outer loop gets its bytes: the two outcomes of
`wait_for_completion_timeout` when `rx_ongoing` is set, else those of `usb_bulk_msg`. -/
inductive WaitInput where
  | timeout
  | completed (rx : RxComplete)
  | bulkError
  | bulk (recv : List UInt8)

/-- A round: its input, what the structure on the stack holds and whether
`time_before(jiffies, timeout)` holds after it. -/
structure WaitRound where
  input : WaitInput
  msg : Msg
  inTime : Bool

/-- `do { .. } while (time_before(jiffies, timeout))`: the result and the bytes stored in
the caller's buffer, or `none` while the caller still waits after the given rounds. -/
def waitMsgRounds (ackId nackId : UInt8) : List UInt8 → List WaitRound → Option (Result × List UInt8)
  | _, [] => none
  | buf, round :: rounds =>
      let scan (buf : List UInt8) (recvSize : ℕ) : Option (Result × List UInt8) :=
        match waitMsgRound ackId nackId buf recvSize round.msg with
        | some data => some (.success, data)
        | none =>
            if round.inTime then waitMsgRounds ackId nackId buf rounds
            else some (.failure, [])
      match round.input with
      | .timeout => some (.timeout, [])
      | .bulkError => some (.failure, [])
      | .completed rx => scan (rx.copyTo buf) rx.bufferSize
      | .bulk recv => scan (overwrite buf 0 recv) recv.length

/-- `apt_usbtrx_wait_msg_timeout` when `kzalloc` succeeds. -/
def waitMsgTimeout (ackId nackId : UInt8) (rounds : List WaitRound) :
    Option (Result × List UInt8) :=
  waitMsgRounds ackId nackId (List.replicate rxBufferSize 0) rounds

/-! ### `apt_usbtrx_send_msg_sync` -/

/-- `dev->rx_complete.id = data[2]` -/
def RxComplete.setId (rx : RxComplete) (data : List UInt8) : RxComplete :=
  { rx with id := byteAt data 2 }

/-- `init_completion(&dev->rx_complete.complete)` -/
def RxComplete.initCompletion (rx : RxComplete) : RxComplete := { rx with done := 0 }

/-! ### `ep1_cf02a_cmd_common` and the command functions of `apt_usbtrx_cmd.c` -/

/-- What a command function packs and waits for. -/
structure Command where
  reqCmdId : UInt8
  reqDataSize : ℕ
  respDataSize : ℕ
  respCmdIdAck : UInt8
  respCmdIdNack : UInt8
  deriving DecidableEq

/-- The request frame. `pack` is what `pack_req` stores in the payload, `msg` the structure
on the stack before it. -/
def Command.packRequest (cmd : Command) (pack : List UInt8) (msg : Msg) : Result × List UInt8 :=
  let reqMsg := { msg.copyPayload pack with
    id := cmd.reqCmdId
    payloadSize := UInt8.ofNat (msgLengthToPayload cmd.reqDataSize) }
  msgPack reqMsg (List.replicate cmd.reqDataSize 0) cmd.reqDataSize

/-- The re-parse of the bytes that the wait stored in `resp_data`. -/
def Command.parseResponse (cmd : Command) (stored : List UInt8) (msg : Msg) : Result × Msg :=
  msgParse (overwrite (List.replicate cmd.respDataSize 0) 0 stored) cmd.respDataSize msg

/-- The end of a command with `parse_resp`: the result and, on success, the decoded output. -/
def Command.finishGet {β : Type} (cmd : Command) (parseResp : List UInt8 → β)
    (waited : Result × List UInt8) (msg : Msg) : Result × Option β :=
  if waited.1 ≠ .success then (.failure, none) else
  let (result, respMsg) := cmd.parseResponse waited.2 msg
  if result ≠ .success then (.failure, none) else
  (.success, some (parseResp respMsg.payload))

/-- The end of a command answered by ACK or NACK: the result and, when it is stored, the
value of `*success`. -/
def Command.finishSet (cmd : Command) (waited : Result × List UInt8) (msg : Msg) :
    Result × Option Bool :=
  if waited.1 ≠ .success then (.failure, none) else
  let (result, respMsg) := cmd.parseResponse waited.2 msg
  if result ≠ .success then (.failure, none) else
  let (result, respId) := msgParseAck respMsg.payload
  if result ≠ .success then (.failure, none) else
  if respId ≠ cmd.reqCmdId then (.failure, none) else
  if respMsg.id = cmdACK then (.success, some true)
  else if respMsg.id = cmdNACK then (.success, some false)
  else (.success, none)

end AptUsbtrx
