import AptUsbtrx.Model.Ep1Cf02a

/-! # Reading stored data

`SET_STORE_DATA_RX_CONTROL`, `READ_STORE_DATA` and a device that sends the stored frames in
batches, one batch for the start and one for each receive request that it takes. -/

namespace AptUsbtrx

open Memory

namespace Ep1Cf02a

/-- `ep1_cf02a_rx_store_data_is_read_enable` -/
def rxStoreDataIsReadEnable (dev : Dev UniqueData) : Bool :=
  if dev.onclosing then true
  else
    let receivedFrames :=
      (dev.uniqueData.receivedStoreDataSize % 2 ^ 64).toNat / payloadNotifyRecvCanFrameSize
    let expectedFrames := dev.uniqueData.canFrameCountPerRequest
    if receivedFrames ≥ expectedFrames then true
    else if dev.uniqueData.notifyStoreDataRecvCanFrameComplete then true
    else false

/-- A stored frame is the payload of one notification. -/
abbrev StoreFrame := { f : List UInt8 // f.length = maxPayload }

/-- The notification of a stored frame. -/
def StoreFrame.msg (f : StoreFrame) : Msg :=
  ⟨cmdNotifyStoreDataRecvCanFrame, f.val, 78, f.property⟩

/-- The bytes of a message in front of which the dispatcher is called. -/
def frameBytes (msg : Msg) : List UInt8 :=
  (msgPack msg (List.replicate cmdMaxLength 0) cmdMaxLength).2

/-- The notification that the store has no more frames. -/
def completeMsg : Msg := ⟨cmdNotifyStoreDataRecvCanFrameComplete, Msg.zero.payload, 0, rfl⟩

/-- Where the ioctl of the application stands: `start..` is `SET_STORE_DATA_RX_CONTROL`, the
others are `READ_STORE_DATA`. `out` are the bytes copied to the application. -/
inductive IoctlPc where
  | idle
  | startSend
  | startAck (taken : Bool)
  | wait (buffer count : ℕ)
  | ringRead (buffer count : ℕ)
  | checkComplete (rsize : ℤ) (out : List UInt8)
  | checkEmpty (rsize : ℤ) (out : List UInt8)
  | reset (rsize : ℤ) (out : List UInt8)
  | request (rsize : ℤ) (out : List UInt8)
  | requestAck (taken : Bool) (rsize : ℤ) (out : List UInt8)
  deriving DecidableEq

/-- What an ioctl returned and the bytes it had copied to the application. -/
structure IoctlResult where
  ret : ℤ
  out : List UInt8
  deriving DecidableEq

/-- What a `READ_STORE_DATA` is told: whether the copies of its parameters succeed, whether a
signal ends the wait, whether the copy of the count succeeds, and what the receive request
returns. -/
structure ReadStoreAnswers where
  copiedFrom : Bool
  copiedTo : Bool
  interrupted : Bool
  copiedCount : Bool
  result : Result
  success : Bool
  deriving DecidableEq

/-- The end of the ioctl: when all is read and the device has more, the count of received data
is reset and the next batch is requested. -/
def requestNextBatch (dev : Dev UniqueData) (rsize : ℤ) (out : List UInt8)
    (answers : ReadStoreAnswers) : IoctlResult × Dev UniqueData :=
  if dev.uniqueData.notifyStoreDataRecvCanFrameComplete = false ∧
      ringbufferIsEmpty dev.uniqueData.rxStoreData = true then
    let dev := { dev with uniqueData := { dev.uniqueData with receivedStoreDataSize := 0 } }
    if answers.result ≠ .success then (⟨-eio, out⟩, dev) else
    if answers.success ≠ true then (⟨-eio, out⟩, dev) else
    (⟨rsize, out⟩, dev)
  else (⟨rsize, out⟩, dev)

/-- The ioctl behind its wait. -/
def readStoreDataRing (copyToUser : ℕ → ℕ → Bool) (dev : Dev UniqueData) (buffer count : ℕ)
    (answers : ReadStoreAnswers) : IoctlResult × Dev UniqueData :=
  if dev.onclosing then (⟨-eshutdown, []⟩, dev) else
  let r := ringbufferRead copyToUser dev.uniqueData.rxStoreData buffer count
  let dev := { dev with uniqueData := { dev.uniqueData with rxStoreData := r.ring } }
  if r.ret < 0 then (⟨-eio, []⟩, dev) else
  if ¬ answers.copiedCount then (⟨-efault, r.out⟩, dev) else
  requestNextBatch dev r.ret r.out answers

/-- `ep1_cf02a_ioctl_read_store_data` when nothing else runs. -/
def ioctlReadStoreData (copyToUser : ℕ → ℕ → Bool) (dev : Dev UniqueData) (buffer count : ℕ)
    (answers : ReadStoreAnswers) : IoctlResult × Dev UniqueData :=
  if ¬ answers.copiedFrom then (⟨-efault, []⟩, dev) else
  if ¬ answers.copiedTo then (⟨-efault, []⟩, dev) else
  if dev.onopening then (⟨-enodev, []⟩, dev) else
  if dev.onclosing then (⟨-eshutdown, []⟩, dev) else
  if rxStoreDataIsReadEnable dev = false then
    (⟨if answers.interrupted then -erestartsys else 0, []⟩, dev) else
  readStoreDataRing copyToUser dev buffer count answers

/-- The driver and the device. `store` are the frames that the device has still to send,
`quota` the number of them that it may send before the next request. -/
structure StoreSystem where
  dev : Dev UniqueData
  pc : IoctlPc
  started : Bool
  quota : ℕ
  store : List StoreFrame
  delivered : List StoreFrame
  rejected : ℕ
  results : List IoctlResult

/-- How `wait_event_interruptible_timeout` returns. -/
inductive Wake where
  | enabled
  | timeout
  | interrupted
  deriving DecidableEq

inductive StoreLabel where
  | start
  | readStoreData (buffer count : ℕ) (copied : Bool)
  | wake (wake : Wake)
  | ringRead (copied : Bool)
  | tau
  | send (taken : Bool)
  | ack (result : Result) (success : Bool)
  | frame
  | complete
  | other (data : List UInt8) (msg : Msg)
  | disconnect

namespace StoreSystem

/-- Nothing started, `store` is what the device has stored. -/
def init (dev : Dev UniqueData) (store : List StoreFrame) : StoreSystem :=
  ⟨dev, .idle, false, 0, store, [], 0, []⟩

def setPc (s : StoreSystem) (pc : IoctlPc) : StoreSystem := { s with pc := pc }

/-- The ioctl returns. -/
def ret (s : StoreSystem) (ret : ℤ) (out : List UInt8) : StoreSystem :=
  { s with pc := .idle, results := s.results ++ [⟨ret, out⟩] }

def setUniqueData (s : StoreSystem) (uniqueData : UniqueData) : StoreSystem :=
  { s with dev := { s.dev with uniqueData := uniqueData } }

def dispatch (s : StoreSystem) (data : List UInt8) (msg : Msg) : StoreSystem :=
  { s with dev := (AptUsbtrx.dispatchMsg dispatchMsg s.dev data msg).1 }

/-- What `ep1_cf02a_ioctl_set_store_data_rx_control` does for a start before it sends the
command. -/
def clear (s : StoreSystem) : StoreSystem :=
  s.setUniqueData { s.dev.uniqueData with
    rxStoreData := ringbufferClear s.dev.uniqueData.rxStoreData
    receivedStoreDataSize := 0
    notifyStoreDataRecvCanFrameComplete := false }

/-- The device takes the start or a receive request: it may send one more batch. -/
def take (s : StoreSystem) (taken : Bool) : StoreSystem :=
  if taken then
    { s with started := true, quota := s.quota + s.dev.uniqueData.canFrameCountPerRequest }
  else s

/-- The part of `ep1_cf02a_ioctl_read_store_data` from the wait to the copy of the count. -/
def readRing (copyToUser : ℕ → ℕ → Bool) (s : StoreSystem) (buffer count : ℕ) (copied : Bool) :
    StoreSystem :=
  if s.dev.onclosing then s.ret (-eshutdown) []
  else
    let r := ringbufferRead copyToUser s.dev.uniqueData.rxStoreData buffer count
    let s := s.setUniqueData { s.dev.uniqueData with rxStoreData := r.ring }
    if r.ret < 0 then s.ret (-eio) []
    else if copied then s.setPc (.checkComplete r.ret r.out)
    else s.ret (-efault) r.out

/-- A step inside an ioctl that depends on nothing but the state. -/
def tau (s : StoreSystem) : Option StoreSystem :=
  match s.pc with
  | .checkComplete rsize out =>
      if s.dev.uniqueData.notifyStoreDataRecvCanFrameComplete = false then
        some (s.setPc (.checkEmpty rsize out))
      else some (s.ret rsize out)
  | .checkEmpty rsize out =>
      if ringbufferIsEmpty s.dev.uniqueData.rxStoreData = true then
        some (s.setPc (.reset rsize out))
      else some (s.ret rsize out)
  | .reset rsize out =>
      some ((s.setUniqueData { s.dev.uniqueData with receivedStoreDataSize := 0 }).setPc
        (.request rsize out))
  | _ => none

/-- One step of the ioctl, of the device or of the receive path. `copied` tells whether the
copies of the ioctl's parameters succeed, `taken` whether the device takes the command that
is sent, `result` and `success` are what the command function then returns. -/
def step (copyToUser : ℕ → ℕ → Bool) (s : StoreSystem) : StoreLabel → Option StoreSystem
  | .start =>
      if s.pc = .idle ∧ s.started = false then some (s.clear.setPc .startSend) else none
  | .readStoreData buffer count copied =>
      if s.pc = .idle ∧ s.started = true ∧ count < 2 ^ 64 then
        if copied = false then some (s.ret (-efault) [])
        else if s.dev.onopening then some (s.ret (-enodev) [])
        else if s.dev.onclosing then some (s.ret (-eshutdown) [])
        else some (s.setPc (.wait buffer count))
      else none
  | .wake wake =>
      match s.pc with
      | .wait buffer count =>
          if wake = .enabled ↔ rxStoreDataIsReadEnable s.dev = true then
            match wake with
            | .enabled => some (s.setPc (.ringRead buffer count))
            | .timeout => some (s.ret 0 [])
            | .interrupted => some (s.ret (-erestartsys) [])
          else none
      | _ => none
  | .ringRead copied =>
      match s.pc with
      | .ringRead buffer count => some (s.readRing copyToUser buffer count copied)
      | _ => none
  | .tau => s.tau
  | .send taken =>
      match s.pc with
      | .startSend => some ((s.take taken).setPc (.startAck taken))
      | .request rsize out => some ((s.take taken).setPc (.requestAck taken rsize out))
      | _ => none
  | .ack result success =>
      -- the device acknowledges what it takes only
      let acked := result = .success ∧ success = true
      match s.pc with
      | .startAck taken =>
          if acked → taken = true then
            some (s.ret (if acked then 0 else -eio) [])
          else none
      | .requestAck taken rsize out =>
          if acked → taken = true then
            some (s.ret (if acked then rsize else -eio) out)
          else none
      | _ => none
  | .frame =>
      match s.store with
      | f :: store =>
          if 0 < s.quota then
            some { s.dispatch (frameBytes f.msg) f.msg with
              quota := s.quota - 1
              store := store
              delivered := s.delivered ++ [f]
              rejected :=
                if (ringbufferWrite s.dev.uniqueData.rxStoreData f.val f.val.length).1 < 0 then
                  s.rejected + 1
                else s.rejected }
          else none
      | [] => none
  | .complete =>
      if s.started = true ∧ s.store = [] then
        some (s.dispatch (frameBytes completeMsg) completeMsg)
      else none
  | .other data msg =>
      if msg.id ≠ cmdNotifyStoreDataRecvCanFrame ∧
          msg.id ≠ cmdNotifyStoreDataRecvCanFrameComplete then
        some (s.dispatch data msg)
      else none
  | .disconnect => some { s with dev := { s.dev with onclosing := true } }

end StoreSystem

end Ep1Cf02a

end AptUsbtrx
