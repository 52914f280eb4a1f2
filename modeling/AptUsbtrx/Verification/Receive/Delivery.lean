import AptUsbtrx.Shared.Execution
import AptUsbtrx.Verification.Read.Walk
import AptUsbtrx.Verification.Receive.Framing
import AptUsbtrx.Verification.Receive.Intake

/-! # What the application gets of the stream

The notifications that the stream decodes to enter `rx_data` and leave it in the reads, unless it is
cleared. -/

namespace AptUsbtrx

open Memory Execution

/-! ### What a completion and a read do -/

section

variable {υ κ : Type} {interface : FileInterface υ κ} {held taken : List UInt8} {skip : ℕ}

/-- The dispatcher offers the notifications to the ring. -/
theorem simulates_intake (hseparate : interface.Separate) (env : κ) :
    Simulates (dispatchMsg (interface.uniqueDispatch env)) (fun _ => True)
      (fun dev t => interface.Open dev ∧ dev.rxData = t.ring ∧ t.Holds held skip taken)
      (Intake.step interface.notify) := by
  intro dev t data msg ⟨hopen, hring, hholds⟩ hhanded _
  by_cases hid : msg.id = interface.notify
  · rw [interface.dispatch_notify env dev data msg hopen.rxOngoing hopen.isFile hid]
    refine ⟨⟨hopen.1, hopen.2, hopen.3, hopen.4, hopen.5⟩, ?_, hholds.step⟩
    rw [Intake.step, Msg.message_id, if_pos hid, Msg.message_payload,
      Msg.length_bytes hhanded.size_le, Msg.bytes, ringbufferWrite_take hholds.wf, hring]
  · have hsame := hseparate env dev data msg hid
    refine ⟨hopen.of_same hsame, ?_, hholds.step⟩
    rw [Intake.step, Msg.message_id, if_neg hid, hsame.rxData, hring]

/-- A read takes from the ring what it hands out, and nothing when it fails. -/
theorem read_device_cases {copyToUser : ℕ → ℕ → Bool} {rbmsgAddr buffer count : ℕ}
    {relativeTimeNs : UInt64} {interrupted : Bool} {dev dev' : Dev υ} {result : FileRead}
    (hopen : interface.Open dev) (hwf : dev.rxData.Wf)
    (hroom : dev.rxData.endPtr + maxRwCount < 2 ^ 64) (hcount : count ≤ maxRwCount)
    (h : read interface.func copyToUser rbmsgAddr dev buffer count relativeTimeNs interrupted =
      some (result, dev')) :
    ∃ n ring, Removed dev.rxData n ring ∧ result.out = dev.rxData.queue.take n ∧
      dev' = { dev with rxData := ring } ∧
      (result.ret = result.out.length ∨ result.ret < 0 ∧ result.out = []) := by
  have hopening : ¬ dev.onopening = true := by
    rw [hopen.onopening]
    exact Bool.false_ne_true
  have hclosing : ¬ dev.onclosing = true := by
    rw [hopen.onclosing]
    exact Bool.false_ne_true
  rw [read, if_neg hopening, if_neg hclosing] at h
  by_cases hempty : isReadEnable dev = false
  · rw [if_pos hempty] at h
    by_cases hinterrupted : interrupted = true
    · rw [if_pos hinterrupted] at h
      cases h
      exact ⟨0, dev.rxData, removed_zero hwf, rfl, rfl, .inr ⟨by decide, rfl⟩⟩
    · rw [if_neg hinterrupted] at h
      cases h
  · have hend := hwf.read_le_end
    have hptr : dev.rxData.readPtr + count < 2 ^ 64 := by omega
    rw [if_neg hempty, if_pos hopen.timestampMode] at h
    dsimp only at h
    rcases @ringbufferReadWith_cases dev.rxData hwf copyToUser buffer count hptr with
      hspec | ⟨-, hret, hring⟩
    · rw [ringbufferRead, hspec.ret, if_neg (by omega), hspec.out] at h
      cases h
      refine ⟨count, _, hspec.removed, rfl, rfl, .inl ?_⟩
      rw [List.length_take]
    · rw [ringbufferRead, hret, if_pos (by decide), hring] at h
      cases h
      exact ⟨0, dev.rxData, removed_zero hwf, rfl, rfl, .inr ⟨by decide, rfl⟩⟩

end

/-! ### Runs -/

namespace RxDeparture

/-- The bytes that leave. -/
def bytes : RxDeparture → List UInt8
  | read result => result.out
  | clear ring => ring.queue

/-- A read returns as many bytes as it says, or an error and none. -/
def Reported : RxDeparture → Prop
  | read result => result.ret = result.out.length ∨ result.ret < 0 ∧ result.out = []
  | clear _ => True

end RxDeparture

namespace Delivery

variable {υ κ : Type} {interface : FileInterface υ κ} {rbmsgAddr : ℕ} {dev : Dev υ}
  {s t : Delivery υ} {label : DeliveryLabel υ κ} {labels : List (DeliveryLabel υ κ)}
  {held : List UInt8} {skip : ℕ} {fates : List Fate}

/-- The bytes that have left `rx_data`. -/
def departed (s : Delivery υ) : List UInt8 := (s.departures.map RxDeparture.bytes).flatten

/-- The notifications decoded so far have their fates. -/
structure Inv (interface : FileInterface υ κ) (held : List UInt8) (skip : ℕ) (fates : List Fate)
    (s : Delivery υ) : Prop where
  isOpen : interface.Open s.dev
  transfer : s.dev.rxTransfer.Wf
  leftover : s.dev.rxTransfer.leftover = (frameDecoder.scan s.wire).2
  fates_eq : fates.map Fate.payload = notified interface.notify (frameDecoder.scan s.wire).1
  holds : (Intake.mk s.dev.rxData fates).Holds held skip s.departed
  reported : ∀ d ∈ s.departures, d.Reported

/-- The ring has room for all the bytes at hand when a URB completes. -/
def KeepsUp (s : Delivery υ) : DeliveryLabel υ κ → Prop
  | .urb _ _ recv _ =>
      s.dev.rxData.queue.length + (s.dev.rxTransfer.dataSize + recv.length) ≤
        s.dev.rxData.bufferSize
  | .read .. | .clear | .elsewhere _ => True

instance (s : Delivery υ) (label : DeliveryLabel υ κ) : Decidable (KeepsUp s label) :=
  match label with
  | .urb _ _ recv _ => inferInstanceAs (Decidable (s.dev.rxData.queue.length +
      (s.dev.rxTransfer.dataSize + recv.length) ≤ s.dev.rxData.bufferSize))
  | .read .. | .clear | .elsewhere _ => isTrue trivial

theorem inv_start (hopen : interface.Open dev) (hwf : dev.rxData.Wf)
    (hroom : dev.rxData.endPtr + maxRwCount < 2 ^ 64) (hskip : dev.rxData.skipCount < 2 ^ 64)
    (htransfer : dev.rxTransfer.Wf) :
    (start dev).Inv interface dev.rxData.queue dev.rxData.skipCount [] := by
  have hscan : frameDecoder.scan (start dev).wire = ([], dev.rxTransfer.leftover) :=
    frameDecoder.scan_of_more htransfer.waiting
  refine ⟨hopen, htransfer, ?_, ?_, ⟨hwf, hroom, ?_, ?_⟩, ?_⟩
  · rw [hscan]
    rfl
  · rw [hscan]
    rfl
  · simp [start, departed, storedBytes]
  · change dev.rxData.skipCount = (dev.rxData.skipCount + 0) % 2 ^ 64
    rw [Nat.add_zero, Nat.mod_eq_of_lt hskip]
  · intro d hd
    cases hd

theorem Inv.urb (h : s.Inv interface held skip fates) (hseparate : interface.Separate) (env : κ)
    {recv : List UInt8} (msg : Msg) (hrecv : recv.length ≤ rxBufferSize) :
    ∃ fates', Inv interface held skip fates'
        { s with
          dev := s.dev.readBulkCallback (interface.uniqueDispatch env) .ok recv msg
          wire := s.wire ++ recv } ∧
      (s.dev.rxData.queue.length + (s.dev.rxTransfer.dataSize + recv.length) ≤
          s.dev.rxData.bufferSize →
        (∀ f ∈ fates, f.stored = true) → ∀ f ∈ fates', f.stored = true) := by
  obtain ⟨hwf, hleft, hopen, hring, hholds⟩ :=
    readBulkCallback_spec (simulates_intake hseparate env) msg h.transfer hrecv
      (t := ⟨s.dev.rxData, fates⟩) ⟨h.isOpen, rfl, h.holds⟩ fun _ _ => trivial
  rw [h.leftover] at hleft hring hholds
  have hscan := frameDecoder.scan_append s.wire recv
  have hcarried : s.dev.rxTransfer.leftover.length = s.dev.rxTransfer.dataSize := by
    have hlt := h.transfer.dataSize_lt
    have hlen := h.transfer.length_buffer
    simp only [cmdMaxLength, rxTransferBufferSize, rxBufferSize] at hlt hlen
    rw [RxTransfer.leftover, List.length_take]
    omega
  have hsum := sum_length_scan_le ((frameDecoder.scan s.wire).2 ++ recv)
  rw [List.length_append, ← h.leftover, hcarried] at hsum
  rw [h.leftover] at hsum
  have hclosing := h.isOpen.onclosing
  have hfates := Intake.foldl_fates interface.notify
    (frameDecoder.scan ((frameDecoder.scan s.wire).2 ++ recv)).1 ⟨s.dev.rxData, fates⟩
  have hstored := Intake.foldl_stored interface.notify
    (frameDecoder.scan ((frameDecoder.scan s.wire).2 ++ recv)).1 h.holds
  generalize (frameDecoder.scan ((frameDecoder.scan s.wire).2 ++ recv)).1.foldl
    (Intake.step interface.notify) ⟨s.dev.rxData, fates⟩ = intake at hring hholds hfates hstored
  rw [Dev.readBulkCallback, hclosing]
  dsimp only
  generalize readBulkCallback (dispatchMsg (interface.uniqueDispatch env)) false .ok recv msg
    s.dev.rxTransfer s.dev = after at hwf hleft hopen hring
  refine ⟨intake.fates, ⟨⟨hopen.1, hopen.2, hopen.3, hopen.4, hopen.5⟩, hwf, ?_, ?_, ?_, h.reported⟩,
    fun hroom hall => ?_⟩
  · rw [hscan]
    exact hleft
  · rw [hscan, hfates, h.fates_eq]
    simp only [notified, List.filter_append, List.map_append]
  · change (Intake.mk after.2.1.rxData intake.fates).Holds held skip s.departed
    rw [hring]
    exact hholds
  · exact hstored (Nat.le_trans (Nat.add_le_add_left hsum _) hroom) hall

theorem departed_concat (s : Delivery υ) (d : RxDeparture) :
    departed { s with departures := s.departures ++ [d] } = s.departed ++ d.bytes := by
  simp [departed]

/-- What a clear throws away was in the ring. -/
theorem Inv.clear (h : s.Inv interface held skip fates) :
    Inv interface held skip fates
      { s with
        dev := { s.dev with rxData := ringbufferClear s.dev.rxData }
        departures := s.departures ++ [.clear s.dev.rxData] } := by
  have hopen := h.isOpen
  refine ⟨⟨hopen.1, hopen.2, hopen.3, hopen.4, hopen.5⟩, h.transfer, h.leftover, h.fates_eq,
    ⟨wf_ringbufferClear h.holds.wf, h.holds.room, ?_, h.holds.skipCount⟩, ?_⟩
  · change departed { s with departures := s.departures ++ [.clear s.dev.rxData] } ++
      (ringbufferClear s.dev.rxData).queue = held ++ storedBytes fates
    rw [departed_concat, queue_ringbufferClear, List.append_nil]
    exact h.holds.account
  · intro d hd
    rcases List.mem_append.mp hd with hold | hnew
    · exact h.reported d hold
    · rw [List.mem_singleton.mp hnew]
      exact trivial

theorem inv_step (h : s.Inv interface held skip fates) (hseparate : interface.Separate)
    (hstep : s.step interface rbmsgAddr label = some t) :
    ∃ fates', t.Inv interface held skip fates' ∧
      (KeepsUp s label → (∀ f ∈ fates, f.stored = true) → ∀ f ∈ fates', f.stored = true) := by
  cases label with
  | urb env status recv msg =>
      simp only [step] at hstep
      split at hstep
      case isFalse => cases hstep
      case isTrue hrecv =>
        by_cases hok : status = .ok
        · subst hok
          cases hstep
          exact h.urb hseparate env msg hrecv
        · have hsame : s.dev.readBulkCallback (interface.uniqueDispatch env) status recv msg =
              s.dev := by
            rw [Dev.readBulkCallback, h.isOpen.onclosing]
            cases status with
            | ok => exact absurd rfl hok
            | enoent | epipe | eproto | eshutdown | other => rfl
          rw [hsame, if_neg hok] at hstep
          cases hstep
          exact ⟨fates, h, fun _ hall => hall⟩
  | read copyToUser buffer count relativeTimeNs interrupted =>
      simp only [step] at hstep
      split at hstep
      case isFalse => cases hstep
      case isTrue hcount =>
        obtain ⟨⟨result, dev⟩, hread, rfl⟩ := Option.map_eq_some_iff.mp hstep
        obtain ⟨n, ring, hremoved, hout, rfl, hret⟩ :=
          read_device_cases h.isOpen h.holds.wf h.holds.room hcount hread
        have hopen := h.isOpen
        have hend : ring.endPtr = s.dev.rxData.endPtr := by
          rw [hremoved.wf.end_eq, hremoved.beginPtr, hremoved.bufferSize, h.holds.wf.end_eq]
        refine ⟨fates, ⟨⟨hopen.1, hopen.2, hopen.3, hopen.4, hopen.5⟩, h.transfer, h.leftover,
          h.fates_eq, ⟨hremoved.wf, hend ▸ h.holds.room, ?_, ?_⟩, ?_⟩, fun _ hall => hall⟩
        · calc departed { s with departures := s.departures ++ [.read result] } ++ ring.queue
            _ = s.departed ++ (s.dev.rxData.queue.take n ++ s.dev.rxData.queue.drop n) := by
              rw [departed_concat, RxDeparture.bytes, hout, hremoved.queue, List.append_assoc]
            _ = held ++ storedBytes fates := by
              rw [List.take_append_drop]
              exact h.holds.account
        · rw [hremoved.eq]
          exact h.holds.skipCount
        · intro d hd
          rcases List.mem_append.mp hd with hold | hnew
          · exact h.reported d hold
          · rw [List.mem_singleton.mp hnew]
            exact hret
  | clear =>
      cases hstep
      exact ⟨fates, h.clear, fun _ hall => hall⟩
  | elsewhere dev =>
      simp only [step] at hstep
      split at hstep
      case isFalse => cases hstep
      case isTrue hfile =>
        have hopen := h.isOpen
        cases hstep
        exact ⟨fates, ⟨⟨hopen.1, hopen.2, hopen.3, hfile, hopen.5⟩, h.transfer, h.leftover,
          h.fates_eq, h.holds, h.reported⟩, fun _ hall => hall⟩

/-- In every run, what has left `rx_data`, read or cleared, and what it holds are what it held at
first and the notifications of the stream that the ring took, each as a whole and in their order;
the others are counted. -/
theorem delivery_spec {device : FileDevice} {dev : Dev device.UniqueData}
    {s : Delivery device.UniqueData} {labels : List (DeliveryLabel device.UniqueData device.Env)}
    (hopen : device.registered.Open dev) (hwf : dev.rxData.Wf)
    (hroom : dev.rxData.endPtr + maxRwCount < 2 ^ 64) (hskip : dev.rxData.skipCount < 2 ^ 64)
    (htransfer : dev.rxTransfer.Wf)
    (hrun : exec (step device.registered rbmsgAddr) (start dev) labels = some s) :
    ∃ fates : List Fate,
      fates.map Fate.payload =
        notified device.registered.notify (frameDecoder.scan s.wire).1 ∧
      s.departed ++ s.dev.rxData.queue = dev.rxData.queue ++ storedBytes fates ∧
      s.dev.rxData.skipCount = (dev.rxData.skipCount + (lostBytes fates).length) % 2 ^ 64 ∧
      ∀ d ∈ s.departures, d.Reported := by
  obtain ⟨fates, hinv⟩ : ∃ fates,
      s.Inv device.registered dev.rxData.queue dev.rxData.skipCount fates := by
    apply exec_invariant (I := fun s => ∃ fates,
      s.Inv device.registered dev.rxData.queue dev.rxData.skipCount fates) _ _ hrun
    · intro s label t ⟨fates, hinv⟩ hstep
      obtain ⟨fates', hinv', -⟩ := inv_step hinv device.separate hstep
      exact ⟨fates', hinv'⟩
    · exact ⟨[], inv_start hopen hwf hroom hskip htransfer⟩
  exact ⟨fates, hinv.fates_eq, hinv.holds.account, hinv.holds.skipCount, hinv.reported⟩

/-- The analog unit with its file open and a ring of 32 bytes. -/
def smallFile : Dev Ep1Ag08a.UniqueData :=
  { FileSystem.analogFile with rxData := ringbufferInit 0x1000 32 }

/-- Three notifications in two URBs, and a read. -/
def threeNotifications : List (DeliveryLabel Ep1Ag08a.UniqueData ℤ) :=
  let frame := packed (FileSystem.analogInput 11 0x01)
  [.urb 0 .ok (frame ++ frame.take 5) Msg.zero, .urb 0 .ok (frame.drop 5 ++ frame) Msg.zero,
    .read (fun _ _ => true) 0x8000 15 0 false, .clear]

/-- The third one finds no room. -/
theorem delivery_spec_small :
    ∃ s, exec (step FileDevice.ep1Ag08a.registered 0x30000000) (start smallFile)
        threeNotifications = some s ∧
      ∃ fates : List Fate,
        fates.map Fate.payload =
          notified FileDevice.ep1Ag08a.registered.notify (frameDecoder.scan s.wire).1 ∧
        s.departed ++ s.dev.rxData.queue = smallFile.rxData.queue ++ storedBytes fates ∧
        s.dev.rxData.skipCount =
          (smallFile.rxData.skipCount + (lostBytes fates).length) % 2 ^ 64 ∧
        ∀ d ∈ s.departures, d.Reported := by
  have hrun : (exec (step FileDevice.ep1Ag08a.registered 0x30000000) (start smallFile)
      threeNotifications).isSome = true := by decide +kernel
  obtain ⟨s, hs⟩ := Option.isSome_iff_exists.mp hrun
  exact ⟨s, hs, @delivery_spec 0x30000000 .ep1Ag08a smallFile s threeNotifications
    ⟨rfl, rfl, rfl, rfl, rfl⟩ (wf_ringbufferInit (by decide) (by decide)) (by decide) (by decide)
    (RxTransfer.wf_of_empty List.length_replicate rfl) hs⟩

/-- The acknowledgement of a request. -/
def ackMsg : Msg where
  id := cmdACK
  payload := 0x02 :: List.replicate 77 0
  payloadSize := 1
  payload_length := rfl

/-- Of messages packed one after another, with noise around them and cut in any way, an application
that keeps up reads the payloads of the notifications, all of them and in their order, apart from
what is cleared. -/
theorem delivery_lossless {device : FileDevice} {dev : Dev device.UniqueData}
    {s : Delivery device.UniqueData} {labels : List (DeliveryLabel device.UniqueData device.Env)}
    (hopen : device.registered.Open dev) (hwf : dev.rxData.Wf)
    (hroom : dev.rxData.endPtr + maxRwCount < 2 ^ 64) (hskip : dev.rxData.skipCount < 2 ^ 64)
    (htransfer : dev.rxTransfer.Wf)
    (hrun : exec (step device.registered rbmsgAddr) (start dev) labels = some s)
    (hkeeps : AllSteps (step device.registered rbmsgAddr) KeepsUp (start dev) labels)
    {frames : List (List UInt8 × Msg)} {tail rest : List UInt8}
    (hsize : ∀ f ∈ frames, f.2.payloadSize.toNat ≤ maxPayload)
    (hnoise : ∀ f ∈ frames, msgSob ∉ f.1) (htail : msgSob ∉ tail)
    (hwire : s.wire ++ rest = noisyStream frames tail) :
    s.departed ++ s.dev.rxData.queue <+: dev.rxData.queue ++
        ((frames.filter fun f => f.2.id = device.registered.notify).map (·.2.bytes)).flatten ∧
      (rest = [] → s.departed ++ s.dev.rxData.queue = dev.rxData.queue ++
        ((frames.filter fun f => f.2.id = device.registered.notify).map (·.2.bytes)).flatten) ∧
      s.dev.rxData.skipCount = dev.rxData.skipCount := by
  obtain ⟨fates, hinv, hall⟩ : ∃ fates,
      s.Inv device.registered dev.rxData.queue dev.rxData.skipCount fates ∧
        ∀ f ∈ fates, f.stored = true := by
    apply exec_invariant_of_allSteps (I := fun s => ∃ fates,
      s.Inv device.registered dev.rxData.queue dev.rxData.skipCount fates ∧
        ∀ f ∈ fates, f.stored = true) _ _ hkeeps hrun
    · intro s label t ⟨fates, hinv, hall⟩ hkeep hstep
      obtain ⟨fates', hinv', hstored⟩ := inv_step hinv device.separate hstep
      exact ⟨fates', hinv', hstored hkeep hall⟩
    · exact ⟨[], inv_start hopen hwf hroom hskip htransfer, by simp⟩
  have hstored : storedBytes fates =
      (notified device.registered.notify (frameDecoder.scan s.wire).1).flatten := by
    rw [storedBytes, List.filter_eq_self.mpr hall, hinv.fates_eq]
  have hlost : lostBytes fates = [] := by
    have hnone : fates.filter (fun f => !f.stored) = [] := by
      apply List.filter_eq_nil_iff.mpr
      intro f hf
      simp [hall f hf]
    rw [lostBytes, hnone]
    rfl
  have hnotified : notified device.registered.notify (frames.map fun f => f.2.message) =
      (frames.filter fun f => f.2.id = device.registered.notify).map (·.2.bytes) := by
    rw [notified, List.filter_map, List.map_map]
    rfl
  have hscan := scan_noisyStream hsize hnoise htail
  rw [← hwire, frameDecoder.scan_append] at hscan
  have hsent : notified device.registered.notify (frameDecoder.scan s.wire).1 ++
      notified device.registered.notify
        (frameDecoder.scan ((frameDecoder.scan s.wire).2 ++ rest)).1 =
      (frames.filter fun f => f.2.id = device.registered.notify).map (·.2.bytes) := by
    rw [← hnotified, ← hscan]
    simp only [notified, List.filter_append, List.map_append]
  have haccount : s.departed ++ s.dev.rxData.queue = dev.rxData.queue ++ storedBytes fates :=
    hinv.holds.account
  rw [haccount, hstored, ← hsent, List.flatten_append]
  refine ⟨?_, ?_, ?_⟩
  · rw [← List.append_assoc]
    exact List.prefix_append _ _
  · intro hrest
    have hnone : (frameDecoder.scan ((frameDecoder.scan s.wire).2 ++ rest)).1 = [] := by
      rw [hrest, List.append_nil, frameDecoder.scan_of_more (frameDecoder.verdict_scan_snd _)]
    rw [hnone]
    simp [notified]
  · have hcount : s.dev.rxData.skipCount =
        (dev.rxData.skipCount + (lostBytes fates).length) % 2 ^ 64 := hinv.holds.skipCount
    rw [hcount, hlost, List.length_nil, Nat.add_zero, Nat.mod_eq_of_lt hskip]

/-- A notification and an acknowledgement that end in the second URB, with noise before each. -/
theorem delivery_lossless_noise :
    ∃ s, exec (step FileDevice.ep1Ag08a.registered 0x30000000) (start FileSystem.analogFile)
        [.urb 0 .ok [0x00, 0xF7, 0x0F] Msg.zero,
          .urb 0 .ok ((packed (FileSystem.analogInput 11 0x01)).drop 2 ++
            [0xFA, 0xF7, 0x05, 0x25, 0x02, 0xFA]) Msg.zero] = some s ∧
      s.departed ++ s.dev.rxData.queue = (FileSystem.analogInput 11 0x01).bytes := by
  have hrun : (exec (step FileDevice.ep1Ag08a.registered 0x30000000) (start FileSystem.analogFile)
      [.urb 0 .ok [0x00, 0xF7, 0x0F] Msg.zero,
        .urb 0 .ok ((packed (FileSystem.analogInput 11 0x01)).drop 2 ++
          [0xFA, 0xF7, 0x05, 0x25, 0x02, 0xFA]) Msg.zero]).any (fun s => s.wire ++ [] =
        noisyStream [([0x00], FileSystem.analogInput 11 0x01), ([0xFA], ackMsg)] []) = true := by
    decide +kernel
  obtain ⟨s, hs, hwire⟩ := (Option.any_eq_true _ _).mp hrun
  have hlossless := @delivery_lossless 0x30000000 .ep1Ag08a FileSystem.analogFile s _
    ⟨rfl, rfl, rfl, rfl, rfl⟩ FileSystem.wf_analogFile (by decide) (by decide)
    (RxTransfer.wf_of_empty List.length_replicate rfl) hs (by decide +kernel) _ _ _ (by decide)
    (by decide) (by decide) (of_decide_eq_true hwire)
  exact ⟨s, hs, (hlossless.2.1 rfl).trans (by decide +kernel)⟩

end Delivery

end AptUsbtrx
