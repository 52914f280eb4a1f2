import AptUsbtrx.Shared.Execution
import AptUsbtrx.Shared.Pipeline
import AptUsbtrx.Verification.Transmit.Frames
import AptUsbtrx.Verification.Transmit.Steps

/-! # The transmit thread serves a queue of frames

Whatever the order of writes, clear requests and steps of the thread, the ring holds whole
frames behind the rest of the one in the thread's hands. -/

namespace AptUsbtrx

open Memory Execution

/-- How the thread shows that a frame leaves. -/
def TxEvent.ofOutcome : Outcome (List UInt8) → TxEvent
  | .submitted f => .urb f
  | .failed f => .failed f
  | .cleared _ => .cleared

namespace TxSystem

variable {υ : Type} {s : TxSystem υ} {p : Pipeline (List UInt8)} {bufferAddr : ℕ}

/-- The frame in the thread's hands and the part of it that is still in the ring. -/
def Holds (pc : TxPc) (inHand : Option (List UInt8)) (rest : List UInt8) : Prop :=
  match pc with
  | .body buffer msgLength pos remain => ∃ m : Message, inHand = some m.encode ∧
      msgLength = m.length ∧ pos + remain = m.length ∧ buffer.length = cmdMaxLength ∧
      buffer.take pos = m.encode.take pos ∧ rest = m.encode.drop pos
  | .submit buffer msgLength => inHand = some (buffer.take msgLength) ∧ rest = []
  | _ => inHand = none ∧ rest = []

/-- The state of the queue of frames that the system represents. -/
structure Refines (s : TxSystem υ) (p : Pipeline (List UInt8)) : Prop where
  wf : s.dev.txData.Wf
  room : s.dev.txData.endPtr + cmdMaxLength < 2 ^ 64
  accepted : s.accepted = p.accepted
  log : s.log = p.log.map TxEvent.ofOutcome
  frames : ∀ f ∈ p.accepted, Frame f
  queue : ∃ rest, Holds s.pc p.inHand rest ∧ s.dev.txData.queue = rest ++ p.queued.flatten

namespace Refines

/-- Steps that touch neither the ring nor what the thread holds. -/
theorem of_eq (h : Refines s p) {t : TxSystem υ} (hring : t.dev.txData = s.dev.txData)
    (haccepted : t.accepted = s.accepted) (hlog : t.log = s.log)
    (hpc : ∀ rest, Holds s.pc p.inHand rest → Holds t.pc p.inHand rest) : Refines t p where
  wf := hring ▸ h.wf
  room := hring ▸ h.room
  accepted := haccepted.trans h.accepted
  log := hlog.trans h.log
  frames := h.frames
  queue := by
    obtain ⟨rest, hholds, hqueue⟩ := h.queue
    exact ⟨rest, hpc rest hholds, by rw [hring]; exact hqueue⟩

theorem endPtr_of_removed {ring ring' : Ringbuffer} {n : ℕ} (hw : ring.Wf)
    (h : Removed ring n ring') : ring'.endPtr = ring.endPtr := by
  rw [h.wf.end_eq, hw.end_eq, h.beginPtr, h.bufferSize]

/-- A write. -/
theorem write (h : Refines s p) (hp : p.Reachable) (writeCmdId : UInt8) (payload : List UInt8)
    (payloadSize : UInt8) (msg : Msg) :
    ∃ q : Pipeline (List UInt8), q.Reachable ∧
      Refines (s.write writeCmdId payload payloadSize msg) q ∧ q.left = p.left := by
  obtain ⟨rest, hholds, hqueue⟩ := h.queue
  have hspec := writeTxRb_spec writeCmdId h.wf h.room payload payloadSize msg
  generalize hwrite : writeTxRb writeCmdId s.dev payload payloadSize msg = r at hspec
  obtain ⟨ret, dev⟩ := r
  have hroom : dev.txData.endPtr + cmdMaxLength < 2 ^ 64 := by
    rw [hspec.endPtr]
    exact h.room
  have hsys : s.write writeCmdId payload payloadSize msg = { s with
      dev := dev
      accepted := if ret > 0 then
        s.accepted ++ [packed (writeMsg writeCmdId payload payloadSize msg)]
        else s.accepted } := by
    rw [TxSystem.write, hwrite]
    rfl
  rw [hsys]
  by_cases hret : 0 < ret
  · obtain ⟨hsize, hring⟩ := hspec.accepted hret
    refine ⟨_, hp.tail (.accept (packed (writeMsg writeCmdId payload payloadSize msg))),
      ⟨hspec.wf, hroom, ?_, h.log, ?_, rest, hholds, ?_⟩, ?_⟩
    · simp only [gt_iff_lt, hret, if_true, h.accepted]
    · intro f hf
      rcases List.mem_append.mp hf with hf | hf
      · exact h.frames f hf
      · exact ⟨_, hsize, List.mem_singleton.mp hf⟩
    · simp only [hring, hqueue, List.flatten_append, List.flatten_cons, List.flatten_nil,
        List.append_nil, List.append_assoc]
    · simp only [Pipeline.left, List.length_append, List.length_singleton]
      omega
  · refine ⟨p, hp, ⟨hspec.wf, hroom, ?_, h.log, h.frames, rest, hholds, ?_⟩, rfl⟩
    · simp only [gt_iff_lt, hret, if_false, h.accepted]
    · exact (hspec.rejected hret).trans hqueue

/-- A clear finds nothing in the thread's hands. -/
theorem clear (h : Refines s p) (hp : p.Reachable) (hpc : s.pc = .clear) :
    ∃ q : Pipeline (List UInt8), q.Reachable ∧ Refines { s with
      dev := { s.dev with txData := ringbufferClear s.dev.txData }
      pc := .cleared
      log := s.log ++ [.cleared] } q ∧ q.left = s.accepted.length := by
  obtain ⟨rest, hholds, -⟩ := h.queue
  rw [hpc] at hholds
  obtain ⟨hnone, -⟩ := hholds
  refine ⟨_, hp.tail (.clear hnone), ⟨wf_ringbufferClear h.wf, h.room, h.accepted, ?_, h.frames,
    [], ⟨hnone, rfl⟩, queue_ringbufferClear s.dev.txData⟩, congrArg List.length h.accepted.symm⟩
  simp only [h.log, List.map_append, List.map_cons, List.map_nil, TxEvent.ofOutcome]

/-- The frames that are queued. -/
theorem eq_encode_of_queued (h : Refines s p) (hp : p.Reachable) {f : List UInt8}
    (hf : f ∈ p.queued) : ∃ m : Message, f = m.encode := by
  have hconserved := Pipeline.conserved_of_reachable hp
  apply Frame.eq_encode
  apply h.frames
  rw [hconserved]
  exact List.mem_append_right _ hf

/-- What the thread finds at the front of the ring: nothing, or a frame that it takes. -/
theorem header (h : Refines s p) (hp : p.Reachable) (haddr : bufferAddr ≠ 0)
    (hpc : s.pc = .header) :
    ((readHeader bufferAddr s.dev.txData).1 = .empty ∨
      ∃ buffer msgLength, (readHeader bufferAddr s.dev.txData).1 = .ok buffer msgLength) ∧
    ∃ q : Pipeline (List UInt8), q.Reachable ∧ Refines (s.header bufferAddr) q ∧
      q.left = match (readHeader bufferAddr s.dev.txData).1 with
        | .ok _ _ => p.left + 1
        | _ => p.left := by
  obtain ⟨rest, hholds, hqueue⟩ := h.queue
  rw [hpc] at hholds
  obtain ⟨hnone, rfl⟩ := hholds
  cases hqueued : p.queued with
  | nil =>
      rw [hqueued] at hqueue
      obtain ⟨hread, hremoved⟩ := readHeader_empty haddr h.wf h.room hqueue
      refine ⟨.inl hread, p, hp, ?_, by rw [hread]⟩
      generalize hresult : readHeader bufferAddr s.dev.txData = r at hread hremoved
      obtain ⟨read, ring⟩ := r
      obtain rfl : read = .empty := hread
      rw [TxSystem.header, hresult]
      refine ⟨hremoved.wf, (endPtr_of_removed h.wf hremoved).symm ▸ h.room, h.accepted, h.log,
        h.frames, [], ⟨hnone, rfl⟩, ?_⟩
      rw [hqueued]
      refine hremoved.queue.trans ?_
      rw [hqueue]
      rfl
  | cons f queued =>
      obtain ⟨m, rfl⟩ := h.eq_encode_of_queued hp (hqueued ▸ List.mem_cons_self)
      rw [hqueued, List.nil_append, List.flatten_cons] at hqueue
      obtain ⟨buffer, hread, hlen, hfront, hremoved⟩ := readHeader_frame haddr h.wf h.room hqueue
      refine ⟨.inr ⟨buffer, m.length, hread⟩, _, hp.tail (.take hqueued hnone), ?_, ?_⟩
      rotate_left
      · have hle := (Pipeline.conserved_of_reachable hp).left_add
        rw [hqueued, List.length_cons] at hle
        rw [hread]
        exact show p.accepted.length - queued.length = p.left + 1 by omega
      generalize hresult : readHeader bufferAddr s.dev.txData = r at hread hremoved
      obtain ⟨read, ring⟩ := r
      obtain rfl : read = .ok buffer m.length := hread
      rw [TxSystem.header, hresult]
      have hmin := m.length_bounds.1
      refine ⟨hremoved.wf, (endPtr_of_removed h.wf hremoved).symm ▸ h.room, h.accepted, h.log,
        h.frames, m.encode.drop cmdMinLength, ⟨m, rfl, rfl, by omega, hlen, hfront, rfl⟩, ?_⟩
      refine hremoved.queue.trans ?_
      rw [hqueue, List.drop_append_of_le_length (by rw [m.encode_length]; exact hmin)]

/-- A round of the inner loop reads the rest of the frame. -/
theorem body (h : Refines s p) (haddr : bufferAddr ≠ 0)
    (hstack : bufferAddr + cmdMaxLength < 2 ^ 64) {buffer : List UInt8}
    {msgLength pos remain : ℕ} (hpc : s.pc = .body buffer msgLength pos remain)
    (hremain : 0 < remain) :
    ∃ buffer', (s.body bufferAddr buffer msgLength pos remain).pc =
        .body buffer' msgLength msgLength 0 ∧ p.inHand = some (buffer'.take msgLength) ∧
      Refines (s.body bufferAddr buffer msgLength pos remain) p := by
  obtain ⟨rest, hholds, hqueue⟩ := h.queue
  rw [hpc] at hholds
  obtain ⟨m, hhand, rfl, hsum, hlen, hfront, rfl⟩ := hholds
  have hroom := h.room
  have hmax := m.length_bounds.2
  have henc := m.encode_length
  have hrest : (m.encode.drop pos).length = remain := by
    rw [List.length_drop]
    omega
  have hptr : ptrAdd bufferAddr pos ≠ 0 := by
    rw [ptrAdd_of_lt (by omega)]
    omega
  have hread : ReadSpec s.dev.txData remain
      (ringbufferRawread s.dev.txData (ptrAdd bufferAddr pos) remain) :=
    ringbufferRawread_spec h.wf hptr (by omega)
  have hret := hread.ret_of_le (by rw [hqueue, List.length_append]; omega)
  have hout : (ringbufferRawread s.dev.txData (ptrAdd bufferAddr pos) remain).out =
      m.encode.drop pos := by
    rw [hread.out, hqueue, ← hrest, List.take_left]
  have hbody : s.body bufferAddr buffer m.length pos remain = { s with
      dev := { s.dev with
        txData := (ringbufferRawread s.dev.txData (ptrAdd bufferAddr pos) remain).ring }
      pc := .body (overwrite buffer pos (m.encode.drop pos)) m.length m.length 0 } := by
    rw [TxSystem.body, if_pos hremain]
    dsimp only
    rw [hret, hout, if_neg (by omega), Int.toNat_natCast, hsum, Nat.sub_self]
  have hwhole : (overwrite buffer pos (m.encode.drop pos)).take m.length = m.encode := by
    have htake := take_overwrite_append (show pos + (m.encode.drop pos).length ≤ buffer.length by
      omega)
    rwa [hrest, hsum, hfront, List.take_append_drop] at htake
  have hremoved := hread.removed
  rw [hbody]
  refine ⟨_, rfl, by rw [hwhole]; exact hhand, hremoved.wf,
    (endPtr_of_removed h.wf hremoved).symm ▸ hroom, h.accepted, h.log, h.frames, [], ?_, ?_⟩
  · exact ⟨m, hhand, rfl, rfl, (length_overwrite _ _ _).trans hlen,
      by rw [hwhole, ← henc, List.take_length], by rw [← henc, List.drop_length]⟩
  · refine hremoved.queue.trans ?_
    rw [hqueue, ← hrest, List.drop_left]
    rfl

/-- Behind the inner loop the whole frame is in the buffer. -/
theorem body_done (h : Refines s p) {buffer : List UInt8} {msgLength pos : ℕ}
    (hpc : s.pc = .body buffer msgLength pos 0) :
    Refines (s.body bufferAddr buffer msgLength pos 0) p := by
  refine h.of_eq rfl rfl rfl fun rest hholds => ?_
  rw [hpc] at hholds
  obtain ⟨m, hhand, rfl, hsum, -, hfront, rfl⟩ := hholds
  have henc := m.encode_length
  rw [Nat.add_zero] at hsum
  rw [hsum, ← henc, List.take_length, henc] at hfront
  exact ⟨by rw [hfront]; exact hhand, by rw [hsum, ← henc, List.drop_length]⟩

/-- The frame leaves as one URB, or its URB cannot be set up. -/
theorem submit (h : Refines s p) (hp : p.Reachable) {buffer : List UInt8} {msgLength : ℕ}
    (hpc : s.pc = .submit buffer msgLength) (ok : Bool) :
    ∃ q : Pipeline (List UInt8), q.Reachable ∧
      Refines (s.submit (buffer.take msgLength) ok) q ∧ q.left = p.left := by
  obtain ⟨rest, hholds, hqueue⟩ := h.queue
  rw [hpc] at hholds
  obtain ⟨hhand, rfl⟩ := hholds
  cases ok with
  | true =>
      refine ⟨_, hp.tail (.submit hhand), ⟨h.wf, h.room, h.accepted, ?_, h.frames, [],
        ⟨rfl, rfl⟩, hqueue⟩, rfl⟩
      simp [TxSystem.submit, h.log, TxEvent.ofOutcome]
  | false =>
      refine ⟨_, hp.tail (.fail hhand), ⟨h.wf, h.room, h.accepted, ?_, h.frames, [],
        ⟨rfl, rfl⟩, hqueue⟩, rfl⟩
      simp [TxSystem.submit, giveUp, h.log, TxEvent.ofOutcome]

theorem thread (h : Refines s p) (hp : p.Reachable) (haddr : bufferAddr ≠ 0)
    (hstack : bufferAddr + cmdMaxLength < 2 ^ 64) {choice : Bool} {t : TxSystem υ}
    (hstep : s.thread bufferAddr choice = some t) :
    ∃ q : Pipeline (List UInt8), q.Reachable ∧ Refines t q ∧
      q.left = (s.frameEvent bufferAddr choice).left s.accepted.length p.left := by
  have hidle {t : TxSystem υ} (hring : t.dev.txData = s.dev.txData)
      (haccepted : t.accepted = s.accepted) (hlog : t.log = s.log)
      (hs : ∀ rest, Holds s.pc p.inHand rest → Holds t.pc p.inHand rest)
      (hevent : s.frameEvent bufferAddr choice = .keep) :
      ∃ q : Pipeline (List UInt8), q.Reachable ∧ Refines t q ∧
        q.left = (s.frameEvent bufferAddr choice).left s.accepted.length p.left :=
    ⟨p, hp, h.of_eq hring haccepted hlog hs, hevent ▸ rfl⟩
  cases threadStep_of hstep with
  | stop hpc | toClear hpc | toWait hpc | cleared hpc | enabled hpc | timeout hpc
  | interrupted hpc | down hpc =>
      have hholds (rest : List UInt8) (h : Holds s.pc p.inHand rest) :
          p.inHand = none ∧ rest = [] := by
        rwa [hpc] at h
      exact hidle rfl rfl rfl hholds (by rw [frameEvent, hpc])
  | noToken hpc htokens | hasToken hpc htokens =>
      have hholds (rest : List UInt8) (h : Holds s.pc p.inHand rest) :
          p.inHand = none ∧ rest = [] := by
        rwa [hpc] at h
      have hevent : s.frameEvent bufferAddr choice = .keep := by rw [frameEvent, hpc]
      rw [htokens]
      cases choice
      all_goals exact hidle rfl rfl rfl hholds hevent
  | clear hpc =>
      rw [frameEvent, hpc]
      exact h.clear hp hpc
  | header hpc =>
      rw [frameEvent, hpc]
      obtain ⟨-, q, hq, hrefines, hleft⟩ := h.header hp haddr hpc
      refine ⟨q, hq, hrefines, hleft.trans ?_⟩
      cases (readHeader bufferAddr s.dev.txData).1 <;> rfl
  | @body _ buffer msgLength pos remain hpc =>
      rw [frameEvent, hpc]
      rcases Nat.eq_zero_or_pos remain with rfl | hremain
      · exact ⟨p, hp, h.body_done hpc, rfl⟩
      · obtain ⟨-, -, -, hbody⟩ := h.body haddr hstack hpc hremain
        exact ⟨p, hp, hbody, rfl⟩
  | submit hpc =>
      rw [frameEvent, hpc]
      obtain ⟨q, hq, hrefines, hleft⟩ := h.submit hp hpc choice
      refine ⟨q, hq, hrefines, hleft.trans ?_⟩
      cases choice <;> rfl

theorem step (h : Refines s p) (hp : p.Reachable) (haddr : bufferAddr ≠ 0)
    (hstack : bufferAddr + cmdMaxLength < 2 ^ 64) {writeCmdId : UInt8} {l : TxLabel}
    {t : TxSystem υ} (hstep : s.step writeCmdId bufferAddr l = some t) :
    ∃ q : Pipeline (List UInt8), q.Reachable ∧ Refines t q := by
  cases l with
  | write payload payloadSize msg =>
      cases hstep
      obtain ⟨q, hq, hrefines, -⟩ := h.write hp writeCmdId payload payloadSize msg
      exact ⟨q, hq, hrefines⟩
  | requestClear | atomicSet =>
      cases hstep
      exact ⟨p, hp, h.of_eq rfl rfl rfl fun _ hholds => hholds⟩
  | writeBulkCallback =>
      rw [TxSystem.step] at hstep
      split at hstep
      next =>
        cases hstep
        exact ⟨p, hp, h.of_eq rfl rfl rfl fun _ hholds => hholds⟩
      next => cases hstep
  | thread choice =>
      obtain ⟨q, hq, hrefines, -⟩ := h.thread hp haddr hstack hstep
      exact ⟨q, hq, hrefines⟩

end Refines

theorem refines_start {dev : Dev υ} (hw : dev.txData.Wf) (hempty : dev.txData.queue = [])
    (hroom : dev.txData.endPtr + cmdMaxLength < 2 ^ 64) (maxToken : ℤ) :
    Refines (start dev maxToken) .empty :=
  ⟨hw, hroom, rfl, rfl, fun _ hf => absurd hf List.not_mem_nil, [], ⟨rfl, rfl⟩, hempty⟩

/-- From an empty ring every run serves a queue of frames: each accepted frame is submitted
as one URB, fails, is cleared, is in the thread's hands or is queued, in the order of
acceptance. The thread finds no broken frame and its inner loop always completes one. -/
theorem serves_frames {dev : Dev υ} (hw : dev.txData.Wf) (hempty : dev.txData.queue = [])
    (hroom : dev.txData.endPtr + cmdMaxLength < 2 ^ 64) (haddr : bufferAddr ≠ 0)
    (hstack : bufferAddr + cmdMaxLength < 2 ^ 64) {writeCmdId : UInt8} {maxToken : ℤ}
    {ls : List TxLabel}
    (hrun : exec (TxSystem.step writeCmdId bufferAddr) (start dev maxToken) ls = some s) :
    ∃ p : Pipeline (List UInt8), p.Reachable ∧ p.Conserved ∧ Refines s p ∧
      (s.pc = .header → (readHeader bufferAddr s.dev.txData).1 = .empty ∨
        ∃ buffer msgLength, (readHeader bufferAddr s.dev.txData).1 = .ok buffer msgLength) ∧
      ∀ buffer msgLength pos remain, s.pc = .body buffer msgLength pos remain → 0 < remain →
        ∃ buffer', (s.body bufferAddr buffer msgLength pos remain).pc =
            .body buffer' msgLength msgLength 0 ∧ p.inHand = some (buffer'.take msgLength) := by
  have hinv : ∃ p : Pipeline (List UInt8), p.Reachable ∧ Refines s p := by
    refine exec_invariant (I := fun s => ∃ p : Pipeline (List UInt8), p.Reachable ∧ Refines s p)
      ?_ ?_ hrun
    · rintro s l t ⟨p, hp, h⟩ hstep
      exact h.step hp haddr hstack hstep
    · exact ⟨.empty, .refl, refines_start hw hempty hroom maxToken⟩
  obtain ⟨p, hp, h⟩ := hinv
  refine ⟨p, hp, Pipeline.conserved_of_reachable hp, h, fun hpc => (h.header hp haddr hpc).1, ?_⟩
  intro buffer msgLength pos remain hpc hremain
  obtain ⟨buffer', hbody, hhand, -⟩ := h.body haddr hstack hpc hremain
  exact ⟨buffer', hbody, hhand⟩

/-- A device with a transmit ring of 64 bytes. -/
def smallDev : Dev Unit :=
  { Dev.probed 0x10000000 64 0x20000000 ⟨0, 0⟩ () with txData := ringbufferInit 0x30000000 64 }

/-- A write whose frame the thread submits, and one whose frame is cleared. -/
def writeTwice : List TxLabel :=
  [.atomicSet false false 0, .write [0x01, 0xF7] 2 Msg.zero, .thread false, .thread true,
    .thread true, .thread false, .thread false, .thread false, .thread false, .thread true,
    .write [0x02] 1 Msg.zero, .requestClear, .thread false, .thread false, .thread false]

theorem serves_frames_writeTwice :
    ∃ s, exec (TxSystem.step 0x3A 0x40000000) (start smallDev 10) writeTwice = some s ∧
      s.log = [.urb [0xF7, 0x06, 0x3A, 0x01, 0xF7, 0xFA], .cleared] ∧
      ∃ p : Pipeline (List UInt8), p.Reachable ∧ p.Conserved ∧ Refines s p := by
  have hlog : (exec (TxSystem.step 0x3A 0x40000000) (start smallDev 10) writeTwice).map
      TxSystem.log = some [.urb [0xF7, 0x06, 0x3A, 0x01, 0xF7, 0xFA], .cleared] := by
    decide +kernel
  obtain ⟨s, hs, hevents⟩ := Option.map_eq_some_iff.mp hlog
  obtain ⟨p, hp, hconserved, hrefines, -⟩ := serves_frames
    (wf_ringbufferInit (by decide) (by decide)) (queue_ringbufferInit _ _) (by decide) (by decide)
    (by decide) hs
  exact ⟨s, hs, hevents, p, hp, hconserved, hrefines⟩

end TxSystem

end AptUsbtrx
