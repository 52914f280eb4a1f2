import AptUsbtrx.Model.Dev

/-! # The receive path

`apt_usbtrx_dispatch_msg` and the completion handler of the bulk-in endpoint. -/

namespace AptUsbtrx

open Memory

/-- `get_request_command_from_response_command`; `none` is `APT_USBTRX_CMD_Unknown`, which
is not the value of any byte. -/
def getRequestCommandFromResponseCommand (response : UInt8) : Option UInt8 :=
  if response = cmdResponseGetDeviceId then some cmdGetDeviceId
  else if response = cmdResponseGetSerialNo then some cmdGetSerialNo
  else if response = cmdResponseGetFWVersion then some cmdGetFWVersion
  else if response = cmdResponseGetFWVersionRevision then some cmdGetFWVersionRevision
  else none

/-- The block that dispatchers run for the response to the request in flight: the frame is
copied to the start of the completion buffer and the completion is signalled. -/
def RxComplete.complete (rx : RxComplete) (data : List UInt8) (msg : Msg) : RxComplete :=
  let dataSize := payloadLengthToMsg msg.payloadSize.toNat
  { rx with
    dataSize := dataSize
    buffer := overwrite rx.buffer 0 (slice data 0 dataSize)
    done := rx.done + 1 }

/-- The type of `unique_func.dispatch_msg`. -/
abbrev Dispatch (δ : Type) := δ → List UInt8 → Msg → δ × Result

/-- `apt_usbtrx_dispatch_msg` -/
def dispatchMsg {υ : Type} (uniqueDispatch : Dispatch (Dev υ)) : Dispatch (Dev υ) :=
  fun dev data msg =>
    if ¬ dev.rxOngoing then (dev, .success) else
    if msg.id = cmdNotifyBufferStatus then
      let (result, rate) := msgParseNotifyBufferStatus msg.payload
      if result ≠ .success then (dev, .success) else
      ({ dev with txBufferRate := rate }, .success)
    else if msg.id = cmdResponseGetDeviceId ∨ msg.id = cmdResponseGetSerialNo ∨
        msg.id = cmdResponseGetFWVersion ∨ msg.id = cmdResponseGetFWVersionRevision then
      if some dev.rxComplete.id = getRequestCommandFromResponseCommand msg.id then
        ({ dev with rxComplete := dev.rxComplete.complete data msg }, .success)
      else (dev, .success)
    else if msg.id = cmdACK ∨ msg.id = cmdNACK then
      let (result, id) := msgParseAck msg.payload
      if result ≠ .success then (dev, .success) else
      let dev :=
        if id = cmdResetTS ∧ msg.id = cmdACK then { dev with basetime := dev.resettime } else dev
      if dev.rxComplete.id = id then
        ({ dev with rxComplete := dev.rxComplete.complete data msg }, .success)
      else (dev, .success)
    else
      let (dev, result) := uniqueDispatch dev data msg
      if result ≠ .success then (dev, .failure) else (dev, .success)

/-! ### `apt_usbtrx_read_bulk_callback` -/

/-- The status of a completed URB that the handler tells apart. -/
inductive UrbStatus where
  | ok
  | enoent
  | epipe
  | eproto
  | eshutdown
  | other
  deriving DecidableEq

section

variable {δ : Type}

/-- What the loop over the received bytes leaves behind: `processed_size`, `remain_size`
and the state the dispatcher works on. -/
structure BulkLoop (δ : Type) where
  processed : ℕ
  remain : ℕ
  dev : δ

/-- `while (remain_size >= APT_USBTRX_CMD_MIN_LENGTH)`. `fuel` bounds the rounds, `msg` is
what the structure on the stack holds. -/
def readBulkLoop (dispatch : Dispatch δ) (buf : List UInt8) :
    ℕ → ℕ → ℕ → Msg → δ → BulkLoop δ
  | 0, processed, remain, _, dev => ⟨processed, remain, dev⟩
  | fuel + 1, processed, remain, msg, dev =>
      if remain ≥ cmdMinLength then
        let (result, msg) := msgParse (buf.drop processed) remain msg
        if result ≠ .success then
          if result = .notEnough then ⟨processed, remain, dev⟩
          else readBulkLoop dispatch buf fuel (processed + 1) (remain - 1) msg dev
        else
          let (dev, _) := dispatch dev (buf.drop processed) msg
          let length := payloadLengthToMsg msg.payloadSize.toNat
          readBulkLoop dispatch buf fuel (processed + length) (remain - length) msg dev
      else ⟨processed, remain, dev⟩

/-- `apt_usbtrx_read_bulk_callback` for a URB with the bytes `recv`: the transfer buffer,
the state of the dispatcher and whether the URB is submitted again. -/
def readBulkCallback (dispatch : Dispatch δ) (onclosing : Bool) (status : UrbStatus)
    (recv : List UInt8) (msg : Msg) (rx : RxTransfer) (dev : δ) : RxTransfer × δ × Bool :=
  if onclosing then (rx, dev, false) else
  match status with
  | .enoent | .epipe | .eproto | .eshutdown => (rx, dev, false)
  | .other => (rx, dev, true)
  | .ok =>
      let buf := overwrite rx.buffer rx.dataSize recv
      let total := rx.dataSize + recv.length
      let loop := readBulkLoop dispatch buf total 0 total msg dev
      if loop.remain > 0 then
        let buf :=
          if loop.processed > 0 then overwrite buf 0 (slice buf loop.processed loop.remain)
          else buf
        (⟨buf, loop.remain⟩, loop.dev, true)
      else (⟨buf, 0⟩, loop.dev, true)

end

/-- The completion handler on the device. -/
def Dev.readBulkCallback {υ : Type} (uniqueDispatch : Dispatch (Dev υ)) (status : UrbStatus)
    (recv : List UInt8) (msg : Msg) (dev : Dev υ) : Dev υ :=
  let (rx, dev, _) := AptUsbtrx.readBulkCallback (dispatchMsg uniqueDispatch) dev.onclosing status
    recv msg dev.rxTransfer dev
  { dev with rxTransfer := rx }

end AptUsbtrx
