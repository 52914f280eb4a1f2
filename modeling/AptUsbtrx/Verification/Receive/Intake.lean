import AptUsbtrx.Model.Delivery
import AptUsbtrx.Verification.Receive.Decoder
import AptUsbtrx.Verification.Ringbuffer.Operations

/-! # What a message does to an open file

A notification for the file enters `rx_data` as a whole or not at all; the other messages leave
the file alone. -/

namespace AptUsbtrx

open Memory

/-! ### The dispatchers -/

/-- An application has the file open, and the device's timestamps are left as they are. -/
structure FileInterface.Open {υ κ : Type} (interface : FileInterface υ κ) (dev : Dev υ) : Prop where
  rxOngoing : dev.rxOngoing = true
  onopening : dev.onopening = false
  onclosing : dev.onclosing = false
  isFile : interface.isFile dev.uniqueData = true
  timestampMode : dev.timestampMode = .device

/-- What the file depends on is the same. -/
structure FileInterface.Same {υ κ : Type} (interface : FileInterface υ κ) (dev dev' : Dev υ) :
    Prop where
  rxData : dev'.rxData = dev.rxData
  rxOngoing : dev'.rxOngoing = dev.rxOngoing
  onopening : dev'.onopening = dev.onopening
  onclosing : dev'.onclosing = dev.onclosing
  isFile : interface.isFile dev'.uniqueData = interface.isFile dev.uniqueData
  timestampMode : dev'.timestampMode = dev.timestampMode

/-- Messages other than the notifications for the file leave the file alone. -/
def FileInterface.Separate {υ κ : Type} (interface : FileInterface υ κ) : Prop :=
  ∀ env dev data msg, msg.id ≠ interface.notify →
    interface.Same dev (dispatchMsg (interface.uniqueDispatch env) dev data msg).1

namespace FileInterface

variable {υ κ : Type} {interface : FileInterface υ κ} {dev dev' : Dev υ}

theorem Same.refl (dev : Dev υ) : interface.Same dev dev := ⟨rfl, rfl, rfl, rfl, rfl, rfl⟩

theorem Open.of_same (h : interface.Open dev) (hsame : interface.Same dev dev') :
    interface.Open dev' where
  rxOngoing := hsame.rxOngoing.trans h.rxOngoing
  onopening := hsame.onopening.trans h.onopening
  onclosing := hsame.onclosing.trans h.onclosing
  isFile := hsame.isFile.trans h.isFile
  timestampMode := hsame.timestampMode.trans h.timestampMode

/-- What `apt_usbtrx_dispatch_msg` does by itself leaves the file alone. -/
theorem separate_of_unique
    (h : ∀ env (dev : Dev υ) data msg, msg.id ≠ interface.notify →
      interface.Same dev (interface.uniqueDispatch env dev data msg).1) : interface.Separate := by
  intro env dev data msg hid
  rw [dispatchMsg]
  by_cases hongoing : dev.rxOngoing = true
  · rw [if_neg (not_not_intro hongoing)]
    split
    case isTrue =>
      dsimp only
      split
      all_goals exact ⟨rfl, rfl, rfl, rfl, rfl, rfl⟩
    case isFalse =>
      split
      case isTrue =>
        split
        all_goals exact ⟨rfl, rfl, rfl, rfl, rfl, rfl⟩
      case isFalse =>
        split
        case isTrue =>
          dsimp only
          split
          case isTrue => exact Same.refl dev
          case isFalse =>
            split
            all_goals
              split
              all_goals exact ⟨rfl, rfl, rfl, rfl, rfl, rfl⟩
        case isFalse =>
          have hunique := h env dev data msg hid
          dsimp only
          split
          all_goals exact hunique
  · rw [if_pos hongoing]
    exact Same.refl dev

end FileInterface

theorem ApCt2a.same_dispatchMsg (env : KernelEnv) (dev : Dev UniqueDataCan) (data : List UInt8)
    {msg : Msg} (hid : msg.id ≠ cmdNotifyRecvCANFrame) :
    fileInterface.Same dev (dispatchMsg env dev data msg).1 := by
  rw [dispatchMsg, if_neg hid]
  split
  case isTrue => exact ⟨rfl, rfl, rfl, rfl, rfl, rfl⟩
  case isFalse =>
    split
    case isTrue =>
      split
      all_goals exact ⟨rfl, rfl, rfl, rfl, rfl, rfl⟩
    case isFalse => exact .refl dev

theorem Ep1Ch02a.same_dispatchMsg (env : ApCt2a.KernelEnv) (dev : Dev ApCt2a.UniqueDataCan)
    (data : List UInt8) {msg : Msg} (hid : msg.id ≠ ApCt2a.cmdNotifyRecvCANFrame) :
    fileInterface.Same dev (dispatchMsg env dev data msg).1 := by
  rw [dispatchMsg]
  split
  case isTrue =>
    split
    all_goals exact ⟨rfl, rfl, rfl, rfl, rfl, rfl⟩
  case isFalse =>
    obtain ⟨hring, hongoing, hopening, hclosing, hfile, hmode⟩ :=
      ApCt2a.same_dispatchMsg env dev data hid
    exact ⟨hring, hongoing, hopening, hclosing, hfile, hmode⟩

theorem Ep1Ag08a.same_dispatchMsg (timeNs : ℤ) (dev : Dev UniqueData) (data : List UInt8)
    {msg : Msg} (hid : msg.id ≠ cmdNotifyAnalogInput) :
    fileInterface.Same dev (dispatchMsg timeNs dev data msg).1 := by
  rw [dispatchMsg, if_neg hid]
  split
  case isTrue =>
    split
    all_goals exact ⟨rfl, rfl, rfl, rfl, rfl, rfl⟩
  case isFalse => exact .refl dev

theorem Ep1Cf02a.same_netDispatchMsg (allocated : Bool) (dev : Dev NetUniqueData)
    (data : List UInt8) {msg : Msg} (hid : msg.id ≠ cmdNotifyRecvCANFrame) :
    fileInterface.Same dev (netDispatchMsg allocated dev data msg).1 := by
  rw [netDispatchMsg, if_neg fun h => hid h.1, dispatchMsg, if_neg hid]
  by_cases hstore : msg.id = cmdNotifyStoreDataRecvCanFrame
  · rw [if_pos hstore]
    exact ⟨rfl, rfl, rfl, rfl, rfl, rfl⟩
  by_cases hcomplete : msg.id = cmdNotifyStoreDataRecvCanFrameComplete
  · rw [if_neg hstore, if_pos hcomplete]
    exact ⟨rfl, rfl, rfl, rfl, rfl, rfl⟩
  rw [if_neg hstore, if_neg hcomplete]
  cases responseCases.lookup msg.id with
  | none => exact .refl dev
  | some requestId =>
      dsimp only
      rw [dispatchMsgCommonResponse]
      split
      all_goals exact ⟨rfl, rfl, rfl, rfl, rfl, rfl⟩

theorem FileDevice.separate (device : FileDevice) : device.registered.Separate := by
  cases device with
  | apCt2a =>
      exact FileInterface.separate_of_unique fun env dev data _ => ApCt2a.same_dispatchMsg env dev data
  | ep1Ch02a =>
      exact FileInterface.separate_of_unique fun env dev data _ => Ep1Ch02a.same_dispatchMsg env dev data
  | ep1Cf02a =>
      exact FileInterface.separate_of_unique fun env dev data _ => Ep1Cf02a.same_netDispatchMsg env dev data
  | ep1Ag08a =>
      exact FileInterface.separate_of_unique fun env dev data _ => Ep1Ag08a.same_dispatchMsg env dev data

/-! ### Notifications on their way -/

/-- The payload of a notification for the file, and whether the ring took it. -/
structure Fate where
  payload : List UInt8
  stored : Bool

/-- The bytes that the ring took. -/
def storedBytes (fates : List Fate) : List UInt8 :=
  ((fates.filter fun f => f.stored).map Fate.payload).flatten

/-- The bytes that it did not take. -/
def lostBytes (fates : List Fate) : List UInt8 :=
  ((fates.filter fun f => !f.stored).map Fate.payload).flatten

/-- The payloads of the notifications for the file. -/
def notified (notify : UInt8) (ms : List Message) : List (List UInt8) :=
  (ms.filter fun m => m.id = notify).map Message.payload

/-- `rx_data` and what it was offered. -/
structure Intake where
  ring : Ringbuffer
  fates : List Fate

namespace Intake

variable {t : Intake} {notify : UInt8} {m : Message} {ms : List Message}

/-- A message is offered to the ring if it is a notification for the file. -/
def step (notify : UInt8) (t : Intake) (m : Message) : Intake :=
  if m.id = notify then
    ⟨(ringbufferWrite t.ring m.payload m.payload.length).2,
      t.fates ++ [⟨m.payload, 0 ≤ (ringbufferWrite t.ring m.payload m.payload.length).1⟩]⟩
  else t

/-- With `held` bytes and the count `skip` at first, `taken` bytes have left the ring. -/
structure Holds (held : List UInt8) (skip : ℕ) (taken : List UInt8) (t : Intake) : Prop where
  wf : t.ring.Wf
  room : t.ring.endPtr + maxRwCount < 2 ^ 64
  account : taken ++ t.ring.queue = held ++ storedBytes t.fates
  skipCount : t.ring.skipCount = (skip + (lostBytes t.fates).length) % 2 ^ 64

/-- The ring takes a payload as a whole or not at all. -/
theorem step_cases (hid : m.id = notify) (hwf : t.ring.Wf)
    (hroom : t.ring.endPtr + maxRwCount < 2 ^ 64) :
    t.ring.Fits m.payload.length ∧
        (∃ ring, Written t.ring m.payload ring ∧
          t.step notify m = ⟨ring, t.fates ++ [⟨m.payload, true⟩]⟩) ∨
      ¬ t.ring.Fits m.payload.length ∧
        t.step notify m = ⟨skipped t.ring m.payload.length, t.fates ++ [⟨m.payload, false⟩]⟩ := by
  have hmax : maxPayload ≤ maxRwCount := by decide
  have hsize : t.ring.endPtr + m.payload.length < 2 ^ 64 := by
    have := m.size_le
    omega
  rw [step, if_pos hid]
  by_cases hfits : t.ring.Fits m.payload.length
  · obtain ⟨hret, hwritten⟩ := ringbufferWrite_of_fits hwf rfl hsize hfits
    have hstored : 0 ≤ (ringbufferWrite t.ring m.payload m.payload.length).1 := by omega
    refine .inl ⟨hfits, _, hwritten, ?_⟩
    rw [decide_eq_true hstored]
  · have hpos := pos_of_not_fits hwf hfits
    rcases ringbufferWrite_cases hwf rfl (hwf.writePtr_add_lt hsize) hpos with
      ⟨h, -⟩ | ⟨-, hskip⟩
    · exact absurd h hfits
    · rw [hskip]
      exact .inr ⟨hfits, rfl⟩

variable {held taken : List UInt8} {skip : ℕ}

theorem Holds.step (h : t.Holds held skip taken) : (t.step notify m).Holds held skip taken := by
  by_cases hid : m.id = notify
  · rcases step_cases hid h.wf h.room with ⟨-, ring, hwritten, heq⟩ | ⟨-, heq⟩
    · have hend : ring.endPtr = t.ring.endPtr := by
        rw [hwritten.wf.end_eq, hwritten.beginPtr, hwritten.bufferSize, h.wf.end_eq]
      rw [heq]
      refine ⟨hwritten.wf, hend ▸ h.room, ?_, ?_⟩
      · have hbytes : storedBytes (t.fates ++ [⟨m.payload, true⟩]) =
            storedBytes t.fates ++ m.payload := by simp [storedBytes]
        rw [hbytes, hwritten.queue, ← List.append_assoc, h.account, List.append_assoc]
      · have hbytes : lostBytes (t.fates ++ [⟨m.payload, true⟩]) = lostBytes t.fates := by
          simp [lostBytes]
        rw [hbytes, hwritten.skipCount, h.skipCount]
    · rw [heq]
      refine ⟨wf_skipped h.wf _, h.room, ?_, ?_⟩
      · have hbytes : storedBytes (t.fates ++ [⟨m.payload, false⟩]) = storedBytes t.fates := by
          simp [storedBytes]
        rw [hbytes]
        exact h.account
      · have hbytes : (lostBytes (t.fates ++ [⟨m.payload, false⟩])).length =
            (lostBytes t.fates).length + m.payload.length := by simp [lostBytes]
        rw [hbytes, skipped, h.skipCount, Nat.mod_add_mod, Nat.add_assoc]
  · rw [Intake.step, if_neg hid]
    exact h

theorem Holds.foldl (h : t.Holds held skip taken) :
    (ms.foldl (Intake.step notify) t).Holds held skip taken := by
  induction ms generalizing t with
  | nil => exact h
  | cons m ms ih => exact ih h.step

/-- Every notification for the file gets its fate, in order. -/
theorem foldl_fates (notify : UInt8) (ms : List Message) (t : Intake) :
    (ms.foldl (step notify) t).fates.map Fate.payload =
      t.fates.map Fate.payload ++ notified notify ms := by
  induction ms generalizing t with
  | nil => simp [notified]
  | cons m ms ih =>
      rw [List.foldl_cons, ih, step]
      by_cases hid : m.id = notify
      · simp [notified, hid]
      · simp [notified, hid]

/-- Nothing is lost while there is room for all the frames. -/
theorem foldl_stored (notify : UInt8) (ms : List Message) (h : t.Holds held skip taken)
    (hlen : t.ring.queue.length + (ms.map Message.length).sum ≤ t.ring.bufferSize)
    (hall : ∀ f ∈ t.fates, f.stored = true) :
    ∀ f ∈ (ms.foldl (step notify) t).fates, f.stored = true := by
  induction ms generalizing t with
  | nil => exact hall
  | cons m ms ih =>
      rw [List.map_cons, List.sum_cons, m.length_eq] at hlen
      by_cases hid : m.id = notify
      · rcases step_cases hid h.wf h.room with ⟨-, ring, hwritten, heq⟩ | ⟨hfull, -⟩
        · have hnext : (t.step notify m).Holds held skip taken := h.step
          rw [List.foldl_cons]
          rw [heq] at hnext ⊢
          apply ih hnext
          · rw [hwritten.queue, hwritten.bufferSize, List.length_append]
            omega
          · intro f hf
            rcases List.mem_append.mp hf with hold | hnew
            · exact hall f hold
            · rw [List.mem_singleton.mp hnew]
        · exact absurd (fits_of_lt (by omega)) hfull
      · rw [List.foldl_cons, step, if_neg hid]
        exact ih h (by omega) hall

end Intake

/-- The frames found in a stream fit into it. -/
theorem sum_length_scan_le (xs : List UInt8) :
    ((frameDecoder.scan xs).1.map Message.length).sum ≤ xs.length := by
  fun_induction StreamDecoder.scan frameDecoder xs with
  | case1 xs h => simp
  | case2 xs h ih =>
      rw [List.length_tail] at ih
      omega
  | case3 xs m n h ih =>
      obtain ⟨rfl, -⟩ := eq_encode_of_emit h
      have hle := (frameDecoder.emit_bounds h).2
      rw [List.length_drop] at ih
      rw [List.map_cons, List.sum_cons]
      omega

end AptUsbtrx
