import AptUsbtrx.Model.Transmission
import AptUsbtrx.Verification.Transmit.Thread

/-! # What the device gets of the writes

The URBs carry the payloads of the writes, each in a frame of its own, in the order of the writes
and with nothing in between. -/

namespace AptUsbtrx

open Memory Execution

/-! ### Frames and payloads -/

section

variable {payload : List UInt8} {writeCmdId : UInt8}

theorem frame_eq_encode (h : payload.length ≤ maxPayload) :
    frame writeCmdId payload = (⟨writeCmdId, payload, h⟩ : Message).encode := rfl

/-- The frame of a write. -/
theorem packed_writeMsg (writeCmdId : UInt8) {stored : List UInt8} {payloadSize : UInt8} (msg : Msg)
    (hle : payloadSize.toNat ≤ maxPayload) (hsize : payload.length = payloadSize.toNat)
    (hstored : stored.take payloadSize.toNat = payload) :
    packed (writeMsg writeCmdId stored payloadSize msg) = frame writeCmdId payload := by
  have hbytes : (writeMsg writeCmdId stored payloadSize msg).bytes = payload := by
    have hfit : payload.length ≤ msg.payload.length := by
      rw [msg.payload_length, hsize]
      exact hle
    have htake := take_overwrite_zero hfit
    rw [hsize] at htake
    rw [writeMsg, Msg.bytes, Msg.copyPayload, hstored]
    exact htake
  rw [packed_eq hle, frame_eq_encode (hsize ▸ hle)]
  congr 1
  ext1
  · rfl
  · exact hbytes

/-- Frames one after another decode to their payloads, and nothing is left. -/
theorem scan_frames (writeCmdId : UInt8) {payloads : List (List UInt8)}
    (h : ∀ payload ∈ payloads, payload.length ≤ maxPayload) :
    (frameDecoder.scan (payloads.map (frame writeCmdId)).flatten).1.map (fun m => (m.id, m.payload)) =
        payloads.map (fun payload => (writeCmdId, payload)) ∧
      (frameDecoder.scan (payloads.map (frame writeCmdId)).flatten).2 = [] := by
  induction payloads with
  | nil =>
      rw [List.map_nil, List.flatten_nil, frameDecoder.scan_of_more frameDecoder.verdict_nil]
      exact ⟨rfl, rfl⟩
  | cons payload payloads ih =>
      obtain ⟨hfront, hrest⟩ := List.forall_mem_cons.mp h
      have hverdict : frameDecoder.verdict
          (frame writeCmdId payload ++ (payloads.map (frame writeCmdId)).flatten) =
            .emit ⟨writeCmdId, payload, hfront⟩ (frame writeCmdId payload).length := by
        rw [frame_eq_encode hfront, Message.encode_length]
        exact frameVerdict_encode _ _
      obtain ⟨hemit, hleft⟩ := ih hrest
      rw [List.map_cons, List.flatten_cons, frameDecoder.scan_encoded hverdict]
      exact ⟨by rw [List.map_cons, hemit, List.map_cons], hleft⟩

end

/-! ### Where the payloads are -/

/-- The bytes of a URB. -/
def TxEvent.urbBytes : TxEvent → Option (List UInt8)
  | urb data => some data
  | failed _ | cleared => none

/-- What the bulk-out endpoint has got. -/
def TxSystem.urbStream {υ : Type} (s : TxSystem υ) : List UInt8 :=
  (s.log.filterMap TxEvent.urbBytes).flatten

/-- The thread is done with the writes `gone`, the writes `pending` are in the ring or in its
hands. -/
structure Transmission.Ledger {υ : Type} (device : FileDevice)
    (gone : List (Departure (List UInt8))) (pending : List (List UInt8)) (s : Transmission υ) :
    Prop where
  written : s.written = gone.map Departure.item ++ pending
  received : (frameDecoder.scan s.tx.urbStream).1.map (fun m => (m.id, m.payload)) =
    (gone.filter fun d => d.sent).map fun d => (device.getWriteCmdId, d.item)
  whole : (frameDecoder.scan s.tx.urbStream).2 = []
  queued : s.tx.pc.inHand = false →
    s.tx.dev.txData.queue = (pending.map (frame device.getWriteCmdId)).flatten

theorem filterMap_urbBytes (log : List (Outcome (List UInt8))) :
    (log.map TxEvent.ofOutcome).filterMap TxEvent.urbBytes =
      log.filterMap Outcome.submittedItem := by
  rw [List.filterMap_map]
  congr 1
  funext outcome
  cases outcome <;> rfl

theorem TxSystem.accepted_thread {υ : Type} {s t : TxSystem υ} {bufferAddr : ℕ} {choice : Bool}
    (h : s.thread bufferAddr choice = some t) : t.accepted = s.accepted := by
  cases threadStep_of h with
  | stop | toClear | toWait | clear | cleared | enabled | timeout | interrupted | down => rfl
  | noToken hpc htokens | hasToken hpc htokens =>
      rw [htokens]
      cases choice <;> rfl
  | header =>
      rw [header]
      dsimp only
      split <;> rfl
  | body =>
      rw [body]
      dsimp only
      repeat' split
      all_goals rfl
  | submit => cases choice <;> rfl

/-- Between two frames the thread has nothing in its hands. -/
theorem TxSystem.inHand_eq_none {pc : TxPc} {inHand : Option (List UInt8)} {rest : List UInt8}
    (hholds : Holds pc inHand rest) (hidle : pc.inHand = false) : inHand = none ∧ rest = [] := by
  cases pc with
  | body | submit => cases hidle
  | top | clear | cleared | wait | token | down | header | stopped => exact hholds

namespace Transmission

variable {υ : Type} {device : FileDevice} {s t : Transmission υ} {p : Pipeline (List UInt8)}
  {bufferAddr : ℕ}

/-- The transmit path serves the frames of the writes. -/
structure Carries (device : FileDevice) (s : Transmission υ) (p : Pipeline (List UInt8)) : Prop where
  reachable : p.Reachable
  refines : TxSystem.Refines s.tx p
  accepted : p.accepted = s.written.map (frame device.getWriteCmdId)
  fits : ∀ payload ∈ s.written, payload.length ≤ maxPayload

/-- What the frames of the payloads sent decode to. -/
theorem ledger_of_stream {gone : List (Departure (List UInt8))} {pending : List (List UInt8)}
    (hfits : ∀ payload ∈ s.written, payload.length ≤ maxPayload)
    (hwritten : s.written = gone.map Departure.item ++ pending)
    (hstream : s.tx.urbStream = (((gone.filter fun d => d.sent).map Departure.item).map
      (frame device.getWriteCmdId)).flatten)
    (hqueued : s.tx.pc.inHand = false →
      s.tx.dev.txData.queue = (pending.map (frame device.getWriteCmdId)).flatten) :
    s.Ledger device gone pending := by
  have hsent : ∀ payload ∈ (gone.filter fun d => d.sent).map Departure.item,
      payload.length ≤ maxPayload := by
    intro payload hmem
    obtain ⟨d, hd, rfl⟩ := List.mem_map.mp hmem
    apply hfits
    rw [hwritten]
    exact List.mem_append_left _ (List.mem_map_of_mem (List.mem_of_mem_filter hd))
  obtain ⟨hemit, hleft⟩ := scan_frames device.getWriteCmdId hsent
  refine ⟨hwritten, ?_, ?_, hqueued⟩
  · rw [hstream, hemit, List.map_map]
    rfl
  · rw [hstream, hleft]

theorem Carries.exists_stream (h : Carries device s p) :
    ∃ (gone : List (Departure (List UInt8))) (pending : List (List UInt8)),
      s.written = gone.map Departure.item ++ pending ∧
      s.tx.urbStream = (((gone.filter fun d => d.sent).map Departure.item).map
        (frame device.getWriteCmdId)).flatten ∧
      pending.map (frame device.getWriteCmdId) = p.pending := by
  have hconserved := Pipeline.conserved_of_reachable h.reachable
  rw [Pipeline.Conserved, h.accepted, List.append_assoc] at hconserved
  obtain ⟨done, pending, hwritten, hdone, hpending⟩ := List.map_eq_append_iff.mp hconserved
  obtain ⟨gone, hgone, hsent⟩ := exists_departures hdone
  refine ⟨gone, pending, by rw [hwritten, hgone], ?_, hpending⟩
  rw [TxSystem.urbStream, h.refines.log, filterMap_urbBytes, ← hsent, List.map_map]
  rfl

/-- Between two frames the ring holds what is pending. -/
theorem Carries.queue_eq (h : Carries device s p) (hidle : s.tx.pc.inHand = false) :
    s.tx.dev.txData.queue = p.pending.flatten := by
  obtain ⟨rest, hholds, hqueue⟩ := h.refines.queue
  have hnone := TxSystem.inHand_eq_none hholds hidle
  rw [hqueue, Pipeline.pending, hnone.1, hnone.2]
  rfl

theorem Carries.ledger (h : Carries device s p) : ∃ gone pending, s.Ledger device gone pending := by
  obtain ⟨gone, pending, hwritten, hstream, hpending⟩ := h.exists_stream
  refine ⟨gone, pending, ledger_of_stream h.fits hwritten hstream fun hidle => ?_⟩
  rw [h.queue_eq hidle, hpending]

/-- A write of a payload of some size reports an error or the size. -/
theorem writeTxRb_ret (writeCmdId : UInt8) (dev : Dev υ) (payload : List UInt8) (msg : Msg)
    {payloadSize : UInt8} (hsize : payloadSize ≠ 0) :
    (writeTxRb writeCmdId dev payload payloadSize msg).1 < 0 ∨
      (writeTxRb writeCmdId dev payload payloadSize msg).1 = payloadSize.toNat := by
  have heio : -eio < 0 := by decide
  rw [writeTxRb, if_neg hsize]
  by_cases hopening : dev.onopening = true
  · rw [if_pos hopening]
    exact .inl (show -enodev < 0 by decide)
  by_cases hclosing : dev.onclosing = true
  · rw [if_neg hopening, if_pos hclosing]
    exact .inl (show -eshutdown < 0 by decide)
  rw [if_neg hopening, if_neg hclosing]
  split
  case isTrue => exact .inl heio
  case isFalse =>
    dsimp only
    split
    case isTrue => exact .inl heio
    case isFalse =>
      split
      case isTrue => exact .inl heio
      case isFalse =>
        split
        case isTrue => exact .inl heio
        case isFalse => exact .inr rfl

/-- A write leaves everything as it is, or is one of the transmit path: a payload that is reported
as written has its frame accepted. -/
theorem write_cases {w : FileWrite} (hcopied : ∀ bytes ∈ w.copied, bytes.length = w.count) :
    s.write device w = s ∨ ∃ payload stored payloadSize, payload.length ≤ maxPayload ∧
      (s.write device w).tx = s.tx.write device.getWriteCmdId stored payloadSize w.packedMsg ∧
      ((s.write device w).written = s.written ∧
          (s.write device w).tx.accepted = s.tx.accepted ∨
        (s.write device w).written = s.written ++ [payload] ∧
          (s.write device w).tx.accepted =
            s.tx.accepted ++ [frame device.getWriteCmdId payload]) := by
  by_cases hcount : w.count = 0
  · left
    rw [write, FileWrite.write, if_pos hcount]
    cases w.copied <;> rfl
  obtain ⟨payloadSize, hpayloadSize⟩ :
      ∃ n, UInt8.ofInt (device.getWritePayloadSize w.buffer) = n := ⟨_, rfl⟩
  by_cases hbig : payloadSize.toNat > msgLengthToPayload cmdMaxLength
  · left
    rw [write, FileWrite.write, if_neg hcount]
    dsimp only
    rw [hpayloadSize, if_pos hbig]
    cases w.copied <;> rfl
  by_cases hother : payloadSize.toNat ≠ w.count
  · left
    rw [write, FileWrite.write, if_neg hcount]
    dsimp only
    rw [hpayloadSize, if_neg hbig, if_pos hother]
    cases w.copied <;> rfl
  cases hbytes : w.copied with
  | none =>
      left
      rw [write, hbytes]
      dsimp only
      rw [FileWrite.write, if_neg hcount]
      dsimp only
      rw [hpayloadSize, if_neg hbig, if_neg hother, hbytes]
  | some payload =>
      right
      have hsize : payload.length = payloadSize.toNat := by
        rw [hcopied payload hbytes]
        omega
      have hle : payloadSize.toNat ≤ maxPayload := Nat.le_of_not_lt hbig
      have hne : payloadSize ≠ 0 := by
        rintro rfl
        exact hcount (of_not_not hother).symm
      have hstored : (w.msg.copyPayload payload).payload.take payloadSize.toNat = payload := by
        rw [← hsize, Msg.copyPayload]
        apply take_overwrite_zero
        rw [w.msg.payload_length, hsize]
        exact hle
      have hpacked := packed_writeMsg device.getWriteCmdId w.packedMsg hle hsize hstored
      have hret := writeTxRb_ret device.getWriteCmdId s.tx.dev (w.msg.copyPayload payload).payload
        w.packedMsg hne
      refine ⟨payload, (w.msg.copyPayload payload).payload, payloadSize, hsize ▸ hle, ?_⟩
      obtain ⟨⟨ret, dev⟩, hwrite⟩ : ∃ r, writeTxRb device.getWriteCmdId s.tx.dev
          (w.msg.copyPayload payload).payload payloadSize w.packedMsg = r := ⟨_, rfl⟩
      rw [hwrite] at hret
      have htx : s.tx.write device.getWriteCmdId (w.msg.copyPayload payload).payload payloadSize
          w.packedMsg = { s.tx with
            dev := dev
            accepted :=
              if ret > 0 then s.tx.accepted ++ [frame device.getWriteCmdId payload]
              else s.tx.accepted } := by
        rw [TxSystem.write, hwrite, ← hpacked]
        rfl
      have hfile : w.write device s.tx.dev = if ret < 0 then (ret, dev) else (w.count, dev) := by
        rw [FileWrite.write, if_neg hcount]
        dsimp only
        rw [hpayloadSize, if_neg hbig, if_neg hother, hbytes]
        dsimp only
        rw [hwrite]
      rcases hret with hneg | hret
      · rw [if_pos hneg] at hfile
        rw [htx, write, hfile, hbytes]
        have hnot : ¬ ret > 0 := by omega
        simp only [if_neg hnot]
        exact ⟨trivial, .inl ⟨trivial, trivial⟩⟩
      · have hpos : ret > 0 := by omega
        have hdone : (w.count : ℤ) > 0 := by omega
        rw [if_neg (by omega)] at hfile
        rw [htx, write, hfile, hbytes]
        simp only [if_pos hdone, if_pos hpos]
        exact ⟨trivial, .inr ⟨trivial, trivial⟩⟩

/-! ### Runs -/

theorem Carries.write (h : Carries device s p) {w : FileWrite}
    (hcopied : ∀ bytes ∈ w.copied, bytes.length = w.count) :
    ∃ q, Carries device (s.write device w) q := by
  rcases @write_cases _ device s w hcopied with
    hsame | ⟨payload, stored, payloadSize, hfits, htx, hlog⟩
  · rw [hsame]
    exact ⟨p, h⟩
  · obtain ⟨q, hq, hrefines, -⟩ :=
      h.refines.write h.reachable device.getWriteCmdId stored payloadSize w.packedMsg
    rw [← htx] at hrefines
    refine ⟨q, hq, hrefines, ?_, ?_⟩
    · rw [← hrefines.accepted]
      rcases hlog with ⟨hwritten, haccepted⟩ | ⟨hwritten, haccepted⟩
      · rw [haccepted, hwritten, h.refines.accepted, h.accepted]
      · rw [haccepted, hwritten, h.refines.accepted, h.accepted, List.map_append]
        rfl
    · rcases hlog with ⟨hwritten, -⟩ | ⟨hwritten, -⟩
      · rw [hwritten]
        exact h.fits
      · rw [hwritten]
        intro bytes hbytes
        rcases List.mem_append.mp hbytes with hold | hnew
        · exact h.fits bytes hold
        · rw [List.mem_singleton.mp hnew]
          exact hfits

/-- A step that is no write is one of the transmit path. -/
theorem step_tx {label : TxLabel} (hstep : s.step device bufferAddr (.tx label) = some t) :
    ∃ tx, s.tx.step device.getWriteCmdId bufferAddr label = some tx ∧ t = { s with tx := tx } ∧
      tx.accepted = s.tx.accepted := by
  have hmap : (s.tx.step device.getWriteCmdId bufferAddr label).map
      (fun tx => { s with tx := tx }) = some t := by
    cases label with
    | write => cases hstep
    | requestClear | atomicSet | writeBulkCallback | thread => exact hstep
  obtain ⟨tx, htx, rfl⟩ := Option.map_eq_some_iff.mp hmap
  refine ⟨tx, htx, rfl, ?_⟩
  cases label with
  | write => cases hstep
  | requestClear | atomicSet =>
      cases htx
      rfl
  | writeBulkCallback =>
      simp only [TxSystem.step] at htx
      split at htx
      case isTrue =>
        cases htx
        rfl
      case isFalse => cases htx
  | thread choice => exact TxSystem.accepted_thread htx

theorem Carries.step (h : Carries device s p) (haddr : bufferAddr ≠ 0)
    (hstack : bufferAddr + cmdMaxLength < 2 ^ 64) {label : TransmissionLabel}
    (hstep : s.step device bufferAddr label = some t) : ∃ q, Carries device t q := by
  cases label with
  | write w =>
      simp only [Transmission.step] at hstep
      split at hstep
      case isTrue hcopied =>
        cases hstep
        exact h.write hcopied
      case isFalse => cases hstep
  | tx label =>
      obtain ⟨tx, htx, rfl, haccepted⟩ := step_tx hstep
      obtain ⟨q, hq, hrefines⟩ := h.refines.step h.reachable haddr hstack htx
      refine ⟨q, hq, hrefines, ?_, h.fits⟩
      rw [← hrefines.accepted, haccepted, h.refines.accepted, h.accepted]

theorem carries_start {dev : Dev υ} (hwf : dev.txData.Wf) (hempty : dev.txData.queue = [])
    (hroom : dev.txData.endPtr + cmdMaxLength < 2 ^ 64) (transferMaxToken : ℤ) :
    Carries device (start dev transferMaxToken) .empty where
  reachable := .refl
  refines := TxSystem.refines_start hwf hempty hroom transferMaxToken
  accepted := rfl
  fits := by
    intro payload hpayload
    cases hpayload

theorem exists_carries {dev : Dev υ} {transferMaxToken : ℤ} {labels : List TransmissionLabel}
    (hwf : dev.txData.Wf) (hempty : dev.txData.queue = [])
    (hroom : dev.txData.endPtr + cmdMaxLength < 2 ^ 64) (haddr : bufferAddr ≠ 0)
    (hstack : bufferAddr + cmdMaxLength < 2 ^ 64)
    (hrun : exec (step device bufferAddr) (start dev transferMaxToken) labels = some s) :
    ∃ p, Carries device s p := by
  apply exec_invariant (I := fun s => ∃ p, Carries device s p) _ _ hrun
  · intro s label t ⟨p, h⟩ hstep
    exact h.step haddr hstack hstep
  · exact ⟨.empty, carries_start hwf hempty hroom transferMaxToken⟩

/-- In every run each write that returned its count is sent once, is given up (its URB failed or it
was cleared) or is pending, in the order of the writes; the device decodes what it gets to exactly
the payloads sent. -/
theorem transmission_spec {dev : Dev υ} {transferMaxToken : ℤ} {labels : List TransmissionLabel}
    (hwf : dev.txData.Wf) (hempty : dev.txData.queue = [])
    (hroom : dev.txData.endPtr + cmdMaxLength < 2 ^ 64) (haddr : bufferAddr ≠ 0)
    (hstack : bufferAddr + cmdMaxLength < 2 ^ 64)
    (hrun : exec (step device bufferAddr) (start dev transferMaxToken) labels = some s) :
    ∃ gone pending, s.Ledger device gone pending := by
  obtain ⟨p, h⟩ := exists_carries hwf hempty hroom haddr hstack hrun
  exact h.ledger

/-- A write of 13 bytes. -/
def writeCanFrame : FileWrite where
  buffer := 0x8000
  count := 13
  copied := some (List.replicate 13 0x11)
  msg := Msg.zero
  packedMsg := Msg.zero

/-- Two writes on an EP1-CH02A, the thread submits the first. -/
def twoWrites : List TransmissionLabel :=
  [.tx (.atomicSet false false 0), .write writeCanFrame, .write writeCanFrame, .tx (.thread false),
    .tx (.thread true), .tx (.thread true), .tx (.thread false), .tx (.thread false),
    .tx (.thread false), .tx (.thread false), .tx (.thread true)]

theorem transmission_spec_twoWrites :
    ∃ s, exec (step .ep1Ch02a 0x40000000) (start TxSystem.smallDev 10) twoWrites = some s ∧
      s.written = [List.replicate 13 0x11, List.replicate 13 0x11] ∧
      ∃ gone pending, s.Ledger .ep1Ch02a gone pending := by
  have hwritten : (exec (step .ep1Ch02a 0x40000000) (start TxSystem.smallDev 10) twoWrites).map
      written = some [List.replicate 13 0x11, List.replicate 13 0x11] := by decide +kernel
  obtain ⟨s, hs, hpayloads⟩ := Option.map_eq_some_iff.mp hwritten
  exact ⟨s, hs, hpayloads, transmission_spec (wf_ringbufferInit (by decide) (by decide))
    (queue_ringbufferInit _ _) (by decide) (by decide) (by decide) hs⟩

end Transmission

end AptUsbtrx
