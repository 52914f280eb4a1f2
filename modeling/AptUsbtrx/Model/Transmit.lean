import AptUsbtrx.Model.Dev

/-! # The transmit path

`apt_usbtrx_write_tx_rb` and `apt_usbtrx_tx_thread_func`. The thread is a program counter;
what it finds out about the time, signals and the USB core is resolved by its labels. -/

namespace AptUsbtrx

open Memory

section

variable {υ : Type}

/-- The message that `apt_usbtrx_write_tx_rb` builds on the stack. -/
def writeMsg (writeCmdId : UInt8) (payload : List UInt8) (payloadSize : UInt8) (msg : Msg) : Msg :=
  { msg.copyPayload (payload.take payloadSize.toNat) with
    id := writeCmdId
    payloadSize := payloadSize }

/-- `apt_usbtrx_write_tx_rb`: the value returned and the device after it. `payload` are the
bytes the pointer points to, `msg` is what the structure on the stack holds. -/
def writeTxRb (writeCmdId : UInt8) (dev : Dev υ) (payload : List UInt8) (payloadSize : UInt8)
    (msg : Msg) : ℤ × Dev υ :=
  if payloadSize = 0 then (0, dev) else
  if dev.onopening then (-enodev, dev) else
  if dev.onclosing then (-eshutdown, dev) else
  if payloadSize.toNat > msgLengthToPayload cmdMaxLength then (-eio, dev) else
  let msgSize := (UInt8.ofNat (payloadLengthToMsg payloadSize.toNat)).toNat
  let msg := writeMsg writeCmdId payload payloadSize msg
  let (result, data) := msgPack msg (List.replicate cmdMaxLength 0) msgSize
  if result ≠ .success then (-eio, dev) else
  if ringbufferGetFreeSize dev.txData < msgSize then (-eio, dev) else
  let (wsize, ring) := ringbufferWrite dev.txData data msgSize
  if wsize < 0 then (-eio, { dev with txData := ring }) else
  (payloadSize.toNat, { dev with txData := ring })

/-- `apt_usbtrx_is_write_enable` -/
def isWriteEnable (dev : Dev υ) : Bool :=
  if dev.onclosing then true
  else if ringbufferIsEmpty dev.txData ≠ true then true
  else if dev.txDataClearRequested then true
  else false

/-! ### `apt_usbtrx_tx_thread_func` -/

/-- What comes of reading the first bytes of a message. -/
inductive HeaderRead where
  | empty
  | short
  | noLength
  | invalidLength
  | ok (buffer : List UInt8) (msgLength : ℕ)
  deriving DecidableEq

/-- The read of the minimum length and the checks on it. `bufferAddr` is the address of
`buffer` on the stack. -/
def readHeader (bufferAddr : ℕ) (ring : Ringbuffer) : HeaderRead × Ringbuffer :=
  let r := ringbufferRawread ring bufferAddr cmdMinLength
  if r.ret = 0 then (.empty, r.ring)
  else if r.ret < 0 ∨ r.ret ≠ cmdMinLength then (.short, r.ring)
  else
    let buffer := overwrite (List.replicate cmdMaxLength 0) 0 r.out
    let (result, msgLength) := msgGetLength buffer cmdMinLength
    if result ≠ .success then (.noLength, r.ring)
    else if msgLength.toNat < cmdMinLength ∨ msgLength.toNat > cmdMaxLength then
      (.invalidLength, r.ring)
    else (.ok buffer msgLength.toNat, r.ring)

/-- Where the thread stands. `body` is the loop that reads the rest of a message: `pos` is
`p_buffer - buffer`. -/
inductive TxPc where
  | top
  | clear
  | cleared
  | wait
  | token
  | down
  | header
  | body (buffer : List UInt8) (msgLength pos remain : ℕ)
  | submit (buffer : List UInt8) (msgLength : ℕ)
  | stopped
  deriving DecidableEq

/-- The thread has taken a frame from the ring. -/
def TxPc.inHand : TxPc → Bool
  | body .. | submit .. => true
  | _ => false

/-- What the transmit path shows of its work: a URB with these bytes, a failed
`apt_usbtrx_setup_tx_urb` for these bytes, the ring cleared. -/
inductive TxEvent where
  | urb (data : List UInt8)
  | failed (data : List UInt8)
  | cleared
  deriving DecidableEq

/-- What a step of the thread does to the frames. -/
inductive FrameEvent where
  | take
  | clear
  | submit
  | keep
  deriving DecidableEq

/-- The number of accepted frames that are no longer queued in the ring, which the one in the
thread's hands is not either. -/
def FrameEvent.left (accepted left : ℕ) : FrameEvent → ℕ
  | take => left + 1
  | clear => accepted
  | submit | keep => left

/-- The writers, the thread and the URBs. `accepted` are the frames of the successful
writes in order, `log` is the work of the thread, `urbs` counts the URBs not completed. -/
structure TxSystem (υ : Type) where
  dev : Dev υ
  pc : TxPc
  transferToken : ℤ
  transferMaxToken : ℤ
  usbTransferSem : ℕ
  urbs : ℕ
  accepted : List (List UInt8)
  log : List TxEvent

inductive TxLabel where
  | write (payload : List UInt8) (payloadSize : UInt8) (msg : Msg)
  | requestClear
  | atomicSet (onopening onclosing : Bool) (txBufferRate : ℕ)
  | writeBulkCallback
  | thread (choice : Bool)

namespace TxSystem

/-- The thread has just been started. -/
def start (dev : Dev υ) (transferMaxToken : ℤ) : TxSystem υ :=
  ⟨dev, .top, 0, transferMaxToken, maxTxUrbs, 0, [], []⟩

/-- A write; a frame is accepted when the whole payload is reported as written. -/
def write (writeCmdId : UInt8) (s : TxSystem υ) (payload : List UInt8) (payloadSize : UInt8)
    (msg : Msg) : TxSystem υ :=
  let (ret, dev) := writeTxRb writeCmdId s.dev payload payloadSize msg
  let frameSize := payloadLengthToMsg payloadSize.toNat
  let frame := (msgPack (writeMsg writeCmdId payload payloadSize msg)
    (List.replicate frameSize 0) frameSize).2
  { s with dev := dev, accepted := if ret > 0 then s.accepted ++ [frame] else s.accepted }

/-- The thread's way back to the head of its loop on an error. -/
def giveUp (s : TxSystem υ) : TxSystem υ :=
  { s with pc := .top, usbTransferSem := s.usbTransferSem + 1 }

/-- The refill of the tokens. -/
def refill (s : TxSystem υ) : TxSystem υ :=
  { s with transferToken :=
      if s.dev.txBufferRate > txTransferLimitRate then 0
      else s.transferMaxToken * txTokenExpiredTime }

/-- The read of the first bytes. -/
def header (bufferAddr : ℕ) (s : TxSystem υ) : TxSystem υ :=
  let (read, ring) := readHeader bufferAddr s.dev.txData
  let s := { s with dev := { s.dev with txData := ring } }
  match read with
  | .ok buffer msgLength =>
      { s with pc := .body buffer msgLength cmdMinLength (msgLength - cmdMinLength) }
  | _ => s.giveUp

/-- A round of `while (remain > 0)`, or what follows the loop. -/
def body (bufferAddr : ℕ) (s : TxSystem υ) (buffer : List UInt8) (msgLength pos remain : ℕ) :
    TxSystem υ :=
  if remain > 0 then
    let r := ringbufferRawread s.dev.txData (ptrAdd bufferAddr pos) remain
    let s := { s with dev := { s.dev with txData := r.ring } }
    if r.ret < 0 then s.giveUp
    else
      let buffer := overwrite buffer pos r.out
      { s with pc := .body buffer msgLength (pos + r.ret.toNat) (remain - r.ret.toNat) }
  else { s with pc := .submit buffer msgLength }

/-- `apt_usbtrx_setup_tx_urb` -/
def submit (s : TxSystem υ) (data : List UInt8) (ok : Bool) : TxSystem υ :=
  if ok then
    { s with
      pc := .top
      transferToken := s.transferToken - 1
      urbs := s.urbs + 1
      log := s.log ++ [.urb data] }
  else { s.giveUp with log := s.log ++ [.failed data] }

/-- A step of the thread. `choice` is, in turn, whether it should stop, whether the wait ends
because the condition holds, whether the tokens have expired, whether a signal interrupts
`down_interruptible` and whether the URB is submitted. -/
def thread (bufferAddr : ℕ) (s : TxSystem υ) (choice : Bool) : Option (TxSystem υ) :=
  match s.pc with
  | .top =>
      if choice then some { s with pc := .stopped }
      else if s.dev.txDataClearRequested then some { s with pc := .clear }
      else some { s with pc := .wait }
  | .clear =>
      some { s with
        dev := { s.dev with txData := ringbufferClear s.dev.txData }
        pc := .cleared
        log := s.log ++ [.cleared] }
  | .cleared => some { s with dev := { s.dev with txDataClearRequested := false }, pc := .top }
  | .wait =>
      if choice then if isWriteEnable s.dev then some { s with pc := .token } else none
      else some { s with pc := .top }
  | .token =>
      let s := if choice then s.refill else s
      if s.transferToken ≤ 0 then some { s with pc := .top } else some { s with pc := .down }
  | .down =>
      if choice then some { s with pc := .top }
      else if s.usbTransferSem > 0 then
        some { s with pc := .header, usbTransferSem := s.usbTransferSem - 1 }
      else none
  | .header => some (s.header bufferAddr)
  | .body buffer msgLength pos remain => some (s.body bufferAddr buffer msgLength pos remain)
  | .submit buffer msgLength => some (s.submit (buffer.take msgLength) choice)
  | .stopped => none

def frameEvent (bufferAddr : ℕ) (s : TxSystem υ) (choice : Bool) : FrameEvent :=
  match s.pc with
  | .header =>
      match (readHeader bufferAddr s.dev.txData).1 with
      | .ok _ _ => .take
      | _ => .keep
  | .clear => .clear
  | .submit _ _ => if choice then .submit else .keep
  | _ => .keep

/-- One step: a write, a clear request, a change of the flags and the rate that the rest of
the driver keeps, the completion of a URB, or a step of the thread. -/
def step (writeCmdId : UInt8) (bufferAddr : ℕ) (s : TxSystem υ) : TxLabel → Option (TxSystem υ)
  | .write payload payloadSize msg => some (s.write writeCmdId payload payloadSize msg)
  | .requestClear => some { s with dev := { s.dev with txDataClearRequested := true } }
  | .atomicSet onopening onclosing txBufferRate =>
      some { s with dev := { s.dev with
        onopening := onopening
        onclosing := onclosing
        txBufferRate := txBufferRate } }
  | .writeBulkCallback =>
      if s.urbs > 0 then
        some { s with usbTransferSem := s.usbTransferSem + 1, urbs := s.urbs - 1 }
      else none
  | .thread choice => s.thread bufferAddr choice

end TxSystem

end

end AptUsbtrx
