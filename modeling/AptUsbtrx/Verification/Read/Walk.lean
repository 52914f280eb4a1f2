import AptUsbtrx.Model.FileInterface
import AptUsbtrx.Shared.Execution
import AptUsbtrx.Verification.Read.Parse
import AptUsbtrx.Verification.Ringbuffer.Operations

/-! # Walking through stored notifications

The dispatchers store notifications of any size. The walk through `rx_data` finds their boundaries
exactly if each of them has the size that its own bytes give. -/

namespace AptUsbtrx

open Memory Execution

/-! ### The walk -/

namespace UniqueFunction

variable {func : UniqueFunction} {r rest bytes : List UInt8} {records : List (List UInt8)}
  {fuel : ℕ}

theorem walk_succ (hne : bytes ≠ []) :
    func.walk (fuel + 1) bytes =
      if func.getReadPayloadSize bytes < 0 then none
      else if func.getReadPayloadSize bytes > bytes.length then none
      else (func.walk fuel (bytes.drop (func.getReadPayloadSize bytes).toNat)).map
        (bytes.take (func.getReadPayloadSize bytes).toNat :: ·) := by
  cases bytes with
  | nil => exact absurd rfl hne
  | cons b bytes => rfl

/-- What comes behind a payload that is long enough for a size has no part in it. -/
theorem getReadPayloadSize_append (h : timestampSize < r.length) :
    func.getReadPayloadSize (r ++ rest) = func.getReadPayloadSize r := by
  apply func.size_eq
  rw [byteAt, byteAt, List.getD_eq_getElem?_getD, List.getD_eq_getElem?_getD,
    List.getElem?_append_left h]

/-- One payload in front. -/
theorem walk_append_iff (hr : r ≠ []) :
    func.walk (fuel + 1) (r ++ rest) = some (r :: records) ↔
      func.IsRecord r ∧ func.walk fuel rest = some records := by
  have hne : r ++ rest ≠ [] := by simp [hr]
  rw [walk_succ hne]
  constructor
  · intro hwalk
    split at hwalk
    case isTrue => cases hwalk
    case isFalse hsign =>
      split at hwalk
      case isTrue => cases hwalk
      case isFalse hle =>
        obtain ⟨tail, htail, hcons⟩ := Option.map_eq_some_iff.mp hwalk
        obtain ⟨htake, rfl⟩ := List.cons_eq_cons.mp hcons
        have hbounds := func.size_bounds (Int.not_lt.mp hsign)
        have hlength := congrArg List.length htake
        rw [List.length_take] at hlength
        have hlen : (func.getReadPayloadSize (r ++ rest)).toNat = r.length := by omega
        have hown : func.getReadPayloadSize (r ++ rest) = func.getReadPayloadSize r :=
          getReadPayloadSize_append (by omega)
        rw [hlen, List.drop_left] at htail
        refine ⟨?_, htail⟩
        rw [IsRecord, ← hown]
        omega
  · rintro ⟨hrecord, hrest⟩
    have hown : func.getReadPayloadSize (r ++ rest) = func.getReadPayloadSize r :=
      getReadPayloadSize_append hrecord.length_bounds.1
    rw [hrecord] at hown
    have hle : ¬ ((r.length : ℤ) > (r ++ rest).length) := by
      rw [List.length_append]
      omega
    rw [hown, if_neg (by omega), if_neg hle, Int.toNat_natCast, List.drop_left, List.take_left,
      hrest]
    rfl

theorem walk_flatten_iff (hrecords : ∀ r ∈ records, r ≠ []) (hfuel : records.flatten.length ≤ fuel) :
    func.walk fuel records.flatten = some records ↔ ∀ r ∈ records, func.IsRecord r := by
  induction records generalizing fuel with
  | nil =>
      cases fuel with
      | zero | succ => simp [walk]
  | cons r records ih =>
      have hr := hrecords r List.mem_cons_self
      have hpos := List.length_pos_of_ne_nil hr
      rw [List.flatten_cons, List.length_append] at hfuel
      obtain ⟨k, rfl⟩ : ∃ k, fuel = k + 1 := ⟨fuel - 1, by omega⟩
      rw [List.flatten_cons, walk_append_iff hr,
        ih (fun r hr => hrecords r (List.mem_cons_of_mem _ hr)) (by omega), List.forall_mem_cons]

end UniqueFunction

/-! ### What reads leave -/

variable {υ κ : Type}

/-- A read takes the oldest bytes out, however it ends. -/
theorem removed_of_read {func : UniqueFunction} {copyToUser : ℕ → ℕ → Bool} {rbmsgAddr : ℕ}
    {dev dev' : Dev υ} {buffer count : ℕ} {relativeTimeNs : UInt64} {interrupted : Bool}
    {result : FileRead} (hw : dev.rxData.Wf) (hroom : dev.rxData.endPtr + maxRwCount < 2 ^ 64)
    (hcount : count ≤ maxRwCount)
    (h : read func copyToUser rbmsgAddr dev buffer count relativeTimeNs interrupted =
      some (result, dev')) : ∃ n, Removed dev.rxData n dev'.rxData := by
  have hread : ∀ copy buffer size, size ≤ count →
      ∃ n, Removed dev.rxData n (ringbufferReadWith copy dev.rxData buffer size).ring := by
    intro copy buffer size hsize
    have hend := hw.read_le_end
    have hptr : dev.rxData.readPtr + size < 2 ^ 64 := by omega
    rcases @ringbufferReadWith_cases dev.rxData hw copy buffer size hptr with
      hspec | ⟨-, -, hsame⟩
    · exact ⟨size, hspec.removed⟩
    · rw [hsame]
      exact ⟨0, removed_zero hw⟩
  have hused : (if ringbufferGetUsedSize dev.rxData > count then count
      else ringbufferGetUsedSize dev.rxData) ≤ count := by
    split <;> omega
  rw [read] at h
  by_cases hopening : dev.onopening = true
  · rw [if_pos hopening] at h
    cases h
    exact ⟨0, removed_zero hw⟩
  by_cases hclosing : dev.onclosing = true
  · rw [if_neg hopening, if_pos hclosing] at h
    cases h
    exact ⟨0, removed_zero hw⟩
  rw [if_neg hopening, if_neg hclosing] at h
  by_cases hempty : isReadEnable dev = false
  · rw [if_pos hempty] at h
    by_cases hinterrupted : interrupted = true
    · rw [if_pos hinterrupted] at h
      cases h
      exact ⟨0, removed_zero hw⟩
    · rw [if_neg hinterrupted] at h
      cases h
  rw [if_neg hempty] at h
  by_cases hmode : dev.timestampMode = .device
  · have hdirect : ∃ n, Removed dev.rxData n (ringbufferRead copyToUser dev.rxData buffer count).ring :=
      hread copyToUser buffer count (Nat.le_refl _)
    rw [if_pos hmode] at h
    dsimp only at h
    generalize ringbufferRead copyToUser dev.rxData buffer count = r at h hdirect
    split at h
    case isTrue | isFalse =>
      cases h
      exact hdirect
  · rw [if_neg hmode] at h
    dsimp only at h
    generalize (if ringbufferGetUsedSize dev.rxData > count then count
      else ringbufferGetUsedSize dev.rxData) = rsize at h hused
    have hraw : ∃ n, Removed dev.rxData n (ringbufferRawread dev.rxData rbmsgAddr rsize).ring :=
      hread (fun _ _ => true) rbmsgAddr rsize hused
    generalize ringbufferRawread dev.rxData rbmsgAddr rsize = r at h hraw
    split at h
    case isTrue =>
      cases h
      exact hraw
    case isFalse =>
      split at h
      case isTrue =>
        split at h
        case isTrue =>
          cases h
          exact hraw
        case isFalse =>
          split at h
          case isTrue | isFalse =>
            cases h
            exact hraw
      case isFalse =>
        cases h
        exact hraw

/-! ### Runs -/

namespace FileSystem

variable {interface : FileInterface υ κ} {rbmsgAddr : ℕ} {s t : FileSystem υ} {label : FileLabel κ}

/-- The ring has the bytes of the notifications that are not taken. -/
structure Inv (s : FileSystem υ) : Prop where
  wf : s.dev.rxData.Wf
  room : s.dev.rxData.endPtr + maxRwCount < 2 ^ 64
  queue : s.dev.rxData.queue = s.stored.flatten.drop s.taken
  taken_le : s.taken ≤ s.stored.flatten.length
  ne_nil : ∀ r ∈ s.stored, r ≠ []

theorem inv_start {dev : Dev υ} (hwf : dev.rxData.Wf)
    (hroom : dev.rxData.endPtr + maxRwCount < 2 ^ 64) (hempty : dev.rxData.queue = []) :
    (start dev).Inv where
  wf := hwf
  room := hroom
  queue := hempty
  taken_le := Nat.le_refl 0
  ne_nil := by
    intro r hr
    cases hr

/-- A notification is stored as a whole or not at all. -/
theorem Inv.notify (h : s.Inv) {msg : Msg} (hsize : msg.payloadSize.toNat ≤ maxPayload)
    {dev : Dev υ}
    (hdev : dev = { s.dev with
      rxData := (ringbufferWrite s.dev.rxData msg.payload msg.payloadSize.toNat).2 }) :
    Inv { s with
      dev := dev
      stored :=
        if (ringbufferWrite s.dev.rxData msg.payload msg.payloadSize.toNat).1 > 0 then
          s.stored ++ [msg.bytes]
        else s.stored } := by
  subst hdev
  have hroom : s.dev.rxData.endPtr + msg.payloadSize.toNat < 2 ^ 64 := by
    have hmax : maxPayload ≤ maxRwCount := by decide
    have := h.room
    omega
  have hlength : msg.bytes.length = msg.payloadSize.toNat := by
    rw [Msg.bytes, List.length_take, msg.payload_length, Nat.min_eq_left hsize]
  rw [← ringbufferWrite_take h.wf msg.payload, ← Msg.bytes]
  rcases Nat.eq_zero_or_pos msg.payloadSize.toNat with hzero | hpos
  · rw [hzero]
    exact ⟨h.wf, h.room, h.queue, h.taken_le, h.ne_nil⟩
  · rcases ringbufferWrite_cases h.wf hlength (h.wf.writePtr_add_lt hroom) hpos with
      ⟨-, hret, hwritten⟩ | ⟨-, hskip⟩
    · have hsigned : (ringbufferWrite s.dev.rxData msg.bytes msg.payloadSize.toNat).1 > 0 := by
        omega
      rw [if_pos hsigned]
      have hflatten : (s.stored ++ [msg.bytes]).flatten = s.stored.flatten ++ msg.bytes := by
        rw [List.flatten_append, List.flatten_singleton]
      refine ⟨hwritten.wf, ?_, ?_, ?_, ?_⟩
      · have hend : (ringbufferWrite s.dev.rxData msg.bytes msg.payloadSize.toNat).2.endPtr =
            s.dev.rxData.endPtr := by
          rw [hwritten.wf.end_eq, hwritten.beginPtr, hwritten.bufferSize, h.wf.end_eq]
        exact hend ▸ h.room
      · rw [hflatten, List.drop_append_of_le_length h.taken_le, ← h.queue]
        exact hwritten.queue
      · rw [hflatten, List.length_append]
        exact Nat.le_add_right_of_le h.taken_le
      · intro r hr
        rcases List.mem_append.mp hr with hold | hnew
        · exact h.ne_nil r hold
        · rw [List.mem_singleton.mp hnew]
          exact List.ne_nil_of_length_pos (hlength ▸ hpos)
    · rw [hskip, if_neg (show ¬ ((-1 : ℤ) > 0) by decide)]
      exact ⟨wf_skipped h.wf _, h.room, h.queue, h.taken_le, h.ne_nil⟩

theorem Inv.read (h : s.Inv) {dev : Dev υ} {n : ℕ} (hremoved : Removed s.dev.rxData n dev.rxData) :
    Inv { s with
      dev := dev
      taken := s.taken +
        (ringbufferGetUsedSize s.dev.rxData - ringbufferGetUsedSize dev.rxData) } := by
  have hlength := congrArg List.length h.queue
  rw [List.length_drop] at hlength
  have htaken := h.taken_le
  have hused : ringbufferGetUsedSize s.dev.rxData - ringbufferGetUsedSize dev.rxData =
      min n s.dev.rxData.queue.length := by
    rw [ringbufferGetUsedSize_eq h.wf, ringbufferGetUsedSize_eq hremoved.wf, hremoved.queue,
      List.length_drop]
    omega
  refine ⟨hremoved.wf, ?_, ?_, ?_, h.ne_nil⟩
  · have hend : dev.rxData.endPtr = s.dev.rxData.endPtr := by
      rw [hremoved.wf.end_eq, hremoved.beginPtr, hremoved.bufferSize, h.wf.end_eq]
    exact hend ▸ h.room
  · dsimp only
    rw [hremoved.queue, hused, ← List.drop_drop, ← h.queue]
    exact List.drop_eq_drop_min
  · dsimp only
    rw [hused]
    omega

theorem inv_step (h : s.Inv) (hstep : s.step interface rbmsgAddr label = some t) : t.Inv := by
  cases label with
  | notify env data msg =>
      simp only [step] at hstep
      split at hstep
      case isTrue hguard =>
        obtain ⟨hongoing, hfile, hid, hsize⟩ := hguard
        cases hstep
        exact h.notify hsize (interface.dispatch_notify env s.dev data msg hongoing hfile hid)
      case isFalse => cases hstep
  | read copyToUser buffer count relativeTimeNs interrupted =>
      simp only [step] at hstep
      split at hstep
      case isTrue hcount =>
        obtain ⟨⟨result, dev⟩, hread, rfl⟩ := Option.map_eq_some_iff.mp hstep
        obtain ⟨n, hremoved⟩ := removed_of_read h.wf h.room hcount hread
        exact h.read hremoved
      case isFalse => cases hstep
  | clear =>
      cases hstep
      change (start { s.dev with rxData := ringbufferClear s.dev.rxData }).Inv
      exact inv_start (wf_ringbufferClear h.wf) h.room (queue_ringbufferClear _)

/-- What is stored but not read, when the next byte of the ring is the first one of a
notification. -/
theorem walk_iff_isRecord {dev : Dev υ} {labels : List (FileLabel κ)}
    {done pending : List (List UInt8)} (hwf : dev.rxData.Wf)
    (hroom : dev.rxData.endPtr + maxRwCount < 2 ^ 64) (hempty : dev.rxData.queue = [])
    (hrun : exec (step interface rbmsgAddr) (start dev) labels = some s)
    (hstored : s.stored = done ++ pending) (htaken : s.taken = done.flatten.length) :
    interface.func.walk s.dev.rxData.queue.length s.dev.rxData.queue = some pending ↔
      ∀ r ∈ pending, interface.func.IsRecord r := by
  have hinv : s.Inv := exec_invariant (I := Inv) (fun _ _ _ h hstep => inv_step h hstep)
    (inv_start hwf hroom hempty) hrun
  have hqueue : s.dev.rxData.queue = pending.flatten := by
    rw [hinv.queue, hstored, htaken, List.flatten_append, List.drop_left]
  rw [hqueue]
  apply UniqueFunction.walk_flatten_iff _ (Nat.le_refl _)
  intro r hr
  apply hinv.ne_nil
  rw [hstored]
  exact List.mem_append_right _ hr

end FileSystem

/-! ### The devices -/

/-- The channels of a mask. -/
def maskChannels (mask : UInt8) : List ℕ := (List.range 8).filter mask.toNat.testBit

theorem countBits_eq (mask : UInt8) :
    Ep1Ag08a.countBits mask.toNat = (maskChannels mask).length := by
  have hall : ∀ n < 256,
      Ep1Ag08a.countBits n = ((List.range 8).filter n.testBit).length := by decide +kernel
  exact hall _ mask.toNat_lt

/-- The payload is as long as the device's notifications are by their definition: 21 bytes, 78
bytes, or the timestamp, the mask and two bytes for each of its channels. -/
def FileDevice.Regular (payload : List UInt8) : FileDevice → Prop
  | apCt2a | ep1Ch02a => payload.length = 21
  | ep1Cf02a => payload.length = 78
  | ep1Ag08a => byteAt payload timestampSize ≠ 0 ∧
      payload.length = 9 + 2 * (maskChannels (byteAt payload timestampSize)).length

instance (device : FileDevice) (payload : List UInt8) : Decidable (device.Regular payload) :=
  match device with
  | .apCt2a | .ep1Ch02a => inferInstanceAs (Decidable (payload.length = 21))
  | .ep1Cf02a => inferInstanceAs (Decidable (payload.length = 78))
  | .ep1Ag08a => inferInstanceAs (Decidable (byteAt payload timestampSize ≠ 0 ∧
      payload.length = 9 + 2 * (maskChannels (byteAt payload timestampSize)).length))

theorem FileDevice.isRecord_iff_regular (device : FileDevice) (payload : List UInt8) :
    device.interface.func.IsRecord payload ↔ device.Regular payload := by
  cases device with
  | apCt2a | ep1Ch02a =>
      change (21 : ℤ) = payload.length ↔ payload.length = 21
      omega
  | ep1Cf02a =>
      change (78 : ℤ) = payload.length ↔ payload.length = 78
      omega
  | ep1Ag08a =>
      change Ep1Ag08a.getReadPayloadSize payload = payload.length ↔ _
      rw [Ep1Ag08a.getReadPayloadSize, Regular, ← countBits_eq]
      by_cases hmask : byteAt payload timestampSize = 0
      · simp only [hmask, if_true, ne_eq, not_true_eq_false, false_and, iff_false]
        omega
      · rw [if_neg hmask, Ep1Ag08a.cmdLengthNotifyAnalogInput]
        simp only [ne_eq, hmask, not_false_eq_true, true_and]
        omega

namespace FileSystem

/-- In every run, when the next byte of the ring is the first one of a notification, the walk
visits the boundaries of the notifications that are stored exactly if each of them is as long as
the device's notifications are by their definition. -/
theorem walk_iff_regular {device : FileDevice} {rbmsgAddr : ℕ} {dev : Dev device.UniqueData}
    {s : FileSystem device.UniqueData} {labels : List (FileLabel device.Env)}
    {done pending : List (List UInt8)} (hwf : dev.rxData.Wf)
    (hroom : dev.rxData.endPtr + maxRwCount < 2 ^ 64) (hempty : dev.rxData.queue = [])
    (hrun : exec (step device.interface rbmsgAddr) (start dev) labels = some s)
    (hstored : s.stored = done ++ pending) (htaken : s.taken = done.flatten.length) :
    device.interface.func.walk s.dev.rxData.queue.length s.dev.rxData.queue = some pending ↔
      ∀ r ∈ pending, device.Regular r := by
  rw [walk_iff_isRecord hwf hroom hempty hrun hstored htaken]
  exact forall₂_congr fun r _ => device.isRecord_iff_regular r

/-! ### Notifications of the analog unit -/

/-- `NotifyAnalogInput` with the payload size and the channel mask given. -/
def analogInput (size channel : UInt8) : Msg where
  id := Ep1Ag08a.cmdNotifyAnalogInput
  payload := List.replicate 8 0 ++ channel :: List.replicate 69 0
  payloadSize := size
  payload_length := rfl

/-- The analog unit with its file open. -/
def analogFile : Dev Ep1Ag08a.UniqueData :=
  { Dev.probed 0x10000000 Ep1Ag08a.rxdataBufferSize 0x20000000 ⟨0, 0⟩
      { Ep1Ag08a.initData with ifType := .file } with onopening := false }

theorem wf_analogFile : analogFile.rxData.Wf :=
  wf_ringbufferInit (by decide) (by decide)

/-- The walk takes the mask of the first notification for two values, but it has one. -/
theorem walk_of_wrong_mask : ∃ s : FileSystem Ep1Ag08a.UniqueData,
    exec (step FileDevice.ep1Ag08a.interface 0x30000000) (start analogFile)
        [.notify 0 [] (analogInput 11 0x03), .notify 0 [] (analogInput 11 0x01)] = some s ∧
      s.taken = 0 ∧ s.stored = [(analogInput 11 0x03).bytes, (analogInput 11 0x01).bytes] ∧
      FileDevice.ep1Ag08a.interface.func.walk s.dev.rxData.queue.length s.dev.rxData.queue ≠
        some s.stored := by
  have hrun : (exec (step FileDevice.ep1Ag08a.interface 0x30000000) (start analogFile)
      [.notify 0 [] (analogInput 11 0x03), .notify 0 [] (analogInput 11 0x01)]).any
      (fun s => s.taken = 0 ∧
        s.stored = [(analogInput 11 0x03).bytes, (analogInput 11 0x01).bytes]) = true := by
    decide +kernel
  obtain ⟨s, hs, hstate⟩ := (Option.any_eq_true _ _).mp hrun
  obtain ⟨htaken, hstored⟩ := of_decide_eq_true hstate
  have hinv : s.Inv := exec_invariant (I := Inv) (fun _ _ _ h hstep => inv_step h hstep)
    (inv_start wf_analogFile (by decide) (queue_ringbufferInit _ _)) hs
  refine ⟨s, hs, htaken, hstored, ?_⟩
  rw [hinv.queue, htaken, List.drop_zero, hstored]
  decide

theorem walk_iff_regular_one_channel : ∃ s : FileSystem Ep1Ag08a.UniqueData,
    exec (step FileDevice.ep1Ag08a.interface 0x30000000) (start analogFile)
        [.notify 0 [] (analogInput 11 0x01), .notify 0 [] (analogInput 11 0x01)] = some s ∧
      FileDevice.ep1Ag08a.interface.func.walk s.dev.rxData.queue.length s.dev.rxData.queue =
        some [(analogInput 11 0x01).bytes, (analogInput 11 0x01).bytes] := by
  have hrun : (exec (step FileDevice.ep1Ag08a.interface 0x30000000) (start analogFile)
      [.notify 0 [] (analogInput 11 0x01), .notify 0 [] (analogInput 11 0x01)]).any
      (fun s => s.taken = 0 ∧
        s.stored = [(analogInput 11 0x01).bytes, (analogInput 11 0x01).bytes]) = true := by
    decide +kernel
  obtain ⟨s, hs, hstate⟩ := (Option.any_eq_true _ _).mp hrun
  obtain ⟨htaken, hstored⟩ := of_decide_eq_true hstate
  have hiff := @walk_iff_regular .ep1Ag08a _ analogFile s _ [] _ wf_analogFile (by decide)
    (queue_ringbufferInit _ _) hs hstored htaken
  exact ⟨s, hs, hiff.mpr (by decide)⟩

end FileSystem

end AptUsbtrx
