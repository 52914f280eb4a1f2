import AptUsbtrx.Model.StoreData
import AptUsbtrx.Verification.Ringbuffer.Operations

/-! # The steps of a store-data transfer

What each step requires and does, and what the dispatcher does to the store-data fields. -/

namespace AptUsbtrx

open Memory

namespace Ep1Cf02a

/-! ### The dispatcher -/

/-- The fields that a transfer works on are the same. -/
structure SameStore (dev dev' : Dev UniqueData) : Prop where
  uniqueData : dev'.uniqueData = dev.uniqueData
  onopening : dev'.onopening = dev.onopening
  onclosing : dev'.onclosing = dev.onclosing
  rxOngoing : dev'.rxOngoing = dev.rxOngoing

theorem SameStore.refl (dev : Dev UniqueData) : SameStore dev dev := ⟨rfl, rfl, rfl, rfl⟩

section

variable {dev : Dev UniqueData} (hongoing : dev.rxOngoing = true) (data : List UInt8)

include hongoing

theorem dispatchMsg_storeFrame (f : StoreFrame) :
    (AptUsbtrx.dispatchMsg dispatchMsg dev data f.msg).1 = { dev with
      uniqueData := { dev.uniqueData with
        rxStoreData := (ringbufferWrite dev.uniqueData.rxStoreData f.val 78).2
        receivedStoreDataSize :=
          if (ringbufferWrite dev.uniqueData.rxStoreData f.val 78).1 > 0 then
            atomicAdd dev.uniqueData.receivedStoreDataSize
              (ringbufferWrite dev.uniqueData.rxStoreData f.val 78).1
          else dev.uniqueData.receivedStoreDataSize } } := by
  have hid : f.msg.id = cmdNotifyStoreDataRecvCanFrame := rfl
  rw [AptUsbtrx.dispatchMsg, if_neg (not_not_intro hongoing), hid, if_neg (by decide),
    if_neg (by decide), if_neg (by decide), dispatchMsg, hid, if_neg (by decide), if_pos rfl]
  rfl

theorem dispatchMsg_complete :
    (AptUsbtrx.dispatchMsg dispatchMsg dev data completeMsg).1 = { dev with
      uniqueData := { dev.uniqueData with notifyStoreDataRecvCanFrameComplete := true } } := by
  have hid : completeMsg.id = cmdNotifyStoreDataRecvCanFrameComplete := rfl
  rw [AptUsbtrx.dispatchMsg, if_neg (not_not_intro hongoing), hid, if_neg (by decide),
    if_neg (by decide), if_neg (by decide), dispatchMsg, hid, if_neg (by decide),
    if_neg (by decide), if_pos rfl]
  rfl

omit hongoing in
/-- The dispatcher of the unit on any other message. -/
theorem sameStore_dispatchMsg {msg : Msg} (hframe : msg.id ≠ cmdNotifyStoreDataRecvCanFrame)
    (hcomplete : msg.id ≠ cmdNotifyStoreDataRecvCanFrameComplete) :
    SameStore dev (dispatchMsg dev data msg).1 := by
  rw [dispatchMsg]
  by_cases hnotify : msg.id = cmdNotifyRecvCANFrame
  · rw [if_pos hnotify]
    by_cases hfile : dev.uniqueData.ifType = .file
    · rw [if_pos hfile]
      exact ⟨rfl, rfl, rfl, rfl⟩
    · rw [if_neg hfile]
      exact .refl dev
  rw [if_neg hnotify, if_neg hframe, if_neg hcomplete]
  cases responseCases.lookup msg.id with
  | none => exact .refl dev
  | some requestId =>
      simp only [dispatchMsgCommonResponse]
      by_cases hid : dev.rxComplete.id = requestId
      · rw [if_pos hid]
        exact ⟨rfl, rfl, rfl, rfl⟩
      · rw [if_neg hid]
        exact .refl dev

theorem dispatchMsg_other {msg : Msg} (hframe : msg.id ≠ cmdNotifyStoreDataRecvCanFrame)
    (hcomplete : msg.id ≠ cmdNotifyStoreDataRecvCanFrameComplete) :
    SameStore dev (AptUsbtrx.dispatchMsg dispatchMsg dev data msg).1 := by
  rw [AptUsbtrx.dispatchMsg, if_neg (not_not_intro hongoing)]
  by_cases hstatus : msg.id = cmdNotifyBufferStatus
  · rw [if_pos hstatus]
    exact ⟨rfl, rfl, rfl, rfl⟩
  rw [if_neg hstatus]
  by_cases hbase : msg.id = cmdResponseGetDeviceId ∨ msg.id = cmdResponseGetSerialNo ∨
      msg.id = cmdResponseGetFWVersion ∨ msg.id = cmdResponseGetFWVersionRevision
  · rw [if_pos hbase]
    by_cases hid : some dev.rxComplete.id = getRequestCommandFromResponseCommand msg.id
    · rw [if_pos hid]
      exact ⟨rfl, rfl, rfl, rfl⟩
    · rw [if_neg hid]
      exact .refl dev
  rw [if_neg hbase]
  by_cases hack : msg.id = cmdACK ∨ msg.id = cmdNACK
  · rw [if_pos hack, show msgParseAck msg.payload = (.success, byteAt msg.payload 0) from rfl]
    dsimp only
    rw [if_neg (not_not_intro rfl)]
    by_cases hts : byteAt msg.payload 0 = cmdResetTS ∧ msg.id = cmdACK
    · rw [if_pos hts]
      split <;> exact ⟨rfl, rfl, rfl, rfl⟩
    · rw [if_neg hts]
      split <;> exact ⟨rfl, rfl, rfl, rfl⟩
  · rw [if_neg hack]
    have hsame : SameStore dev (dispatchMsg dev data msg).1 :=
      sameStore_dispatchMsg data hframe hcomplete
    generalize dispatchMsg dev data msg = r at hsame
    obtain ⟨dev', result⟩ := r
    dsimp only
    split <;> exact hsame

end

namespace StoreSystem

variable {copyToUser : ℕ → ℕ → Bool} {s : StoreSystem}

def ring (s : StoreSystem) : Ringbuffer := s.dev.uniqueData.rxStoreData

def received (s : StoreSystem) : ℤ := s.dev.uniqueData.receivedStoreDataSize

/-- The complete notification has arrived. -/
def isComplete (s : StoreSystem) : Bool := s.dev.uniqueData.notifyStoreDataRecvCanFrameComplete

/-- A frame of the batch arrives. -/
def deliver (s : StoreSystem) (f : StoreFrame) (store : List StoreFrame) : StoreSystem :=
  { s.dispatch (frameBytes f.msg) f.msg with
    quota := s.quota - 1
    store := store
    delivered := s.delivered ++ [f]
    rejected :=
      if (ringbufferWrite s.dev.uniqueData.rxStoreData f.val f.val.length).1 < 0 then s.rejected + 1
      else s.rejected }

/-- What each step requires and does. -/
inductive Step (copyToUser : ℕ → ℕ → Bool) (s : StoreSystem) : StoreLabel → StoreSystem → Prop where
  | start : s.pc = .idle → s.started = false → Step copyToUser s .start (s.clear.setPc .startSend)
  | refused {buffer count : ℕ} {copied : Bool} {ret : ℤ} : s.pc = .idle → s.started = true →
      ret < 0 →
      Step copyToUser s (.readStoreData buffer count copied) (s.ret ret [])
  | read {buffer count : ℕ} : s.pc = .idle → s.started = true → count < 2 ^ 64 →
      Step copyToUser s (.readStoreData buffer count true) (s.setPc (.wait buffer count))
  | enabled {buffer count : ℕ} : s.pc = .wait buffer count → rxStoreDataIsReadEnable s.dev = true →
      Step copyToUser s (.wake .enabled) (s.setPc (.ringRead buffer count))
  | waited {buffer count : ℕ} {wake : Wake} {ret : ℤ} : s.pc = .wait buffer count →
      rxStoreDataIsReadEnable s.dev ≠ true →
      Step copyToUser s (.wake wake) (s.ret ret [])
  | ringRead {buffer count : ℕ} {copied : Bool} : s.pc = .ringRead buffer count →
      Step copyToUser s (.ringRead copied) (s.readRing copyToUser buffer count copied)
  | complete {rsize : ℤ} {out : List UInt8} : s.pc = .checkComplete rsize out →
      s.isComplete = true → Step copyToUser s .tau (s.ret rsize out)
  | incomplete {rsize : ℤ} {out : List UInt8} : s.pc = .checkComplete rsize out →
      s.isComplete = false → Step copyToUser s .tau (s.setPc (.checkEmpty rsize out))
  | remaining {rsize : ℤ} {out : List UInt8} : s.pc = .checkEmpty rsize out →
      ringbufferIsEmpty s.ring ≠ true → Step copyToUser s .tau (s.ret rsize out)
  | drained {rsize : ℤ} {out : List UInt8} : s.pc = .checkEmpty rsize out →
      ringbufferIsEmpty s.ring = true → Step copyToUser s .tau (s.setPc (.reset rsize out))
  | reset {rsize : ℤ} {out : List UInt8} : s.pc = .reset rsize out →
      Step copyToUser s .tau ((s.setUniqueData { s.dev.uniqueData with
        receivedStoreDataSize := 0 }).setPc (.request rsize out))
  | sendStart {taken : Bool} : s.pc = .startSend →
      Step copyToUser s (.send taken) ((s.take taken).setPc (.startAck taken))
  | sendRequest {taken : Bool} {rsize : ℤ} {out : List UInt8} : s.pc = .request rsize out →
      Step copyToUser s (.send taken) ((s.take taken).setPc (.requestAck taken rsize out))
  | ackStart {taken : Bool} {result : Result} {success : Bool} : s.pc = .startAck taken →
      (result = .success ∧ success = true → taken = true) → Step copyToUser s (.ack result success)
        (s.ret (if result = .success ∧ success = true then 0 else -eio) [])
  | ackRequest {taken : Bool} {rsize : ℤ} {out : List UInt8} {result : Result} {success : Bool} :
      s.pc = .requestAck taken rsize out →
      (result = .success ∧ success = true → taken = true) → Step copyToUser s (.ack result success)
        (s.ret (if result = .success ∧ success = true then rsize else -eio) out)
  | frame {f : StoreFrame} {store : List StoreFrame} : s.store = f :: store → 0 < s.quota →
      Step copyToUser s .frame (s.deliver f store)
  | storeEnd : s.started = true → s.store = [] →
      Step copyToUser s .complete (s.dispatch (frameBytes completeMsg) completeMsg)
  | other {data : List UInt8} {msg : Msg} : msg.id ≠ cmdNotifyStoreDataRecvCanFrame →
      msg.id ≠ cmdNotifyStoreDataRecvCanFrameComplete →
      Step copyToUser s (.other data msg) (s.dispatch data msg)
  | disconnect :
      Step copyToUser s .disconnect { s with dev := { s.dev with onclosing := true } }

theorem step_of_eq_some {l : StoreLabel} {t : StoreSystem} (h : s.step copyToUser l = some t) :
    Step copyToUser s l t := by
  cases l with
  | start =>
      simp only [step] at h
      split at h
      next hguard =>
        cases h
        exact .start hguard.1 hguard.2
      next => cases h
  | readStoreData buffer count copied =>
      simp only [step] at h
      split at h
      next hguard =>
        split at h
        next =>
          cases h
          exact .refused hguard.1 hguard.2.1 (by decide)
        next hcopied =>
          split at h
          next =>
            cases h
            exact .refused hguard.1 hguard.2.1 (by decide)
          next =>
            split at h
            next =>
              cases h
              exact .refused hguard.1 hguard.2.1 (by decide)
            next =>
              cases h
              obtain rfl : copied = true := by simpa using hcopied
              exact .read hguard.1 hguard.2.1 hguard.2.2
      next => cases h
  | wake wake =>
      simp only [step] at h
      split at h
      next hpc =>
        split at h
        next hguard =>
          cases wake with
          | enabled =>
              cases h
              exact .enabled hpc (hguard.mp rfl)
          | timeout | interrupted =>
              cases h
              exact .waited hpc fun henabled => nomatch hguard.mpr henabled
        next => cases h
      next => cases h
  | ringRead copied =>
      simp only [step] at h
      split at h
      next hpc =>
        cases h
        exact .ringRead hpc
      next => cases h
  | tau =>
      simp only [step, tau] at h
      split at h
      next hpc =>
        split at h
        next hflag =>
          cases h
          exact .incomplete hpc hflag
        next hflag =>
          cases h
          exact .complete hpc (Bool.not_eq_false _ ▸ hflag)
      next hpc =>
        split at h
        next hempty =>
          cases h
          exact .drained hpc hempty
        next hempty =>
          cases h
          exact .remaining hpc hempty
      next hpc =>
        cases h
        exact .reset hpc
      next => cases h
  | send taken =>
      simp only [step] at h
      split at h
      next hpc =>
        cases h
        exact .sendStart hpc
      next hpc =>
        cases h
        exact .sendRequest hpc
      next => cases h
  | ack result success =>
      simp only [step] at h
      split at h
      next hpc =>
        split at h
        next hguard =>
          cases h
          exact .ackStart hpc hguard
        next => cases h
      next hpc =>
        split at h
        next hguard =>
          cases h
          exact .ackRequest hpc hguard
        next => cases h
      next => cases h
  | frame =>
      simp only [step] at h
      split at h
      next hstore =>
        split at h
        next hquota =>
          cases h
          exact .frame hstore hquota
        next => cases h
      next => cases h
  | complete =>
      simp only [step] at h
      split at h
      next hguard =>
        cases h
        exact .storeEnd hguard.1 hguard.2
      next => cases h
  | other data msg =>
      simp only [step] at h
      split at h
      next hguard =>
        cases h
        exact .other hguard.1 hguard.2
      next => cases h
  | disconnect =>
      cases h
      exact .disconnect

end StoreSystem

end Ep1Cf02a

end AptUsbtrx
