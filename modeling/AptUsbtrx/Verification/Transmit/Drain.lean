import AptUsbtrx.Verification.Transmit.Slots
import AptUsbtrx.Verification.Transmit.Transmission

/-! # The transmit path runs dry

As long as the device has room and no clear is requested, the thread gets rid of everything that is
written: from every state that a run reaches, steps of the thread and completions of URBs alone
lead to one where all payloads have gone out. -/

namespace AptUsbtrx

open Memory Execution

namespace TxSystem

variable {υ : Type} {s t : TxSystem υ} {bufferAddr : ℕ} {writeCmdId : UInt8}
  {accepted : List (List UInt8)} {log : List TxEvent}

/-- A step of the thread, or the completion of a URB. -/
def Moves (label : TxLabel) : Prop := (∃ choice, label = .thread choice) ∨ label = .writeBulkCallback

/-- Nothing is in the ring or in the thread's hands. -/
def Drained (s : TxSystem υ) : Prop := s.dev.txData.queue = [] ∧ s.pc.inHand = false

/-- The thread is on its way to having submitted all that is pending; its log will be `log`. -/
structure Draining (accepted : List (List UInt8)) (log : List TxEvent) (s : TxSystem υ) : Prop where
  serves : ∃ p : Pipeline (List UInt8), p.Reachable ∧ Refines s p ∧
    s.log ++ p.pending.map TxEvent.urb = log
  accepted : s.accepted = accepted
  noClear : s.dev.txDataClearRequested = false
  rate : s.dev.txBufferRate ≤ txTransferLimitRate
  token : 0 < s.transferMaxToken
  slots : s.slots = maxTxUrbs
  running : s.pc ≠ .clear ∧ s.pc ≠ .cleared ∧ s.pc ≠ .stopped

/-- How far the thread is from the next frame. -/
def TxPc.distance (usbTransferSem : ℕ) : TxPc → ℕ
  | .body .. => 8
  | .submit .. => 7
  | .top => 6
  | .wait => 5
  | .token => 4
  | .down => if usbTransferSem = 0 then 3 else 2
  | .header => 1
  | .clear | .cleared | .stopped => 0

/-- The bytes of the ring count more than the way to the next frame. -/
def rank (s : TxSystem υ) : ℕ := 8 * s.dev.txData.queue.length + TxPc.distance s.usbTransferSem s.pc

/-- Steps between two frames. -/
theorem Draining.idle (h : s.Draining accepted log) {label : TxLabel}
    (hstep : s.step writeCmdId bufferAddr label = some t) (hdev : t.dev = s.dev)
    (haccepted : t.accepted = s.accepted) (hlog : t.log = s.log)
    (hmax : t.transferMaxToken = s.transferMaxToken) (hs : s.pc.inHand = false)
    (ht : ∀ rest, Holds t.pc none rest ↔ rest = [])
    (hrunning : t.pc ≠ .clear ∧ t.pc ≠ .cleared ∧ t.pc ≠ .stopped) : t.Draining accepted log where
  serves := by
    obtain ⟨p, hp, hrefines, htotal⟩ := h.serves
    refine ⟨p, hp, hrefines.of_eq (congrArg Dev.txData hdev) haccepted hlog ?_, hlog ▸ htotal⟩
    intro rest hholds
    obtain ⟨hnone, rfl⟩ := inHand_eq_none hholds hs
    rw [hnone]
    exact (ht []).mpr rfl
  accepted := haccepted.trans h.accepted
  noClear := hdev ▸ h.noClear
  rate := hdev ▸ h.rate
  token := hmax ▸ h.token
  slots := (slots_step hstep).trans h.slots
  running := hrunning

/-- Some move keeps the thread on its way and brings it nearer. -/
def Nearer (writeCmdId : UInt8) (bufferAddr : ℕ) (accepted : List (List UInt8))
    (log : List TxEvent) (s : TxSystem υ) : Prop :=
  ∃ label t, Moves label ∧ s.step writeCmdId bufferAddr label = some t ∧
    t.Draining accepted log ∧ t.rank < s.rank

/-- A move between two frames. -/
theorem Draining.nearer_idle (h : s.Draining accepted log) {label : TxLabel} (pc : TxPc)
    (transferToken : ℤ) (usbTransferSem urbs : ℕ) (hmoves : Moves label)
    (hs : s.pc.inHand = false) (hpc : pc = .wait ∨ pc = .token ∨ pc = .down ∨ pc = .header)
    (hstep : s.step writeCmdId bufferAddr label = some { s with
      pc := pc
      transferToken := transferToken
      usbTransferSem := usbTransferSem
      urbs := urbs })
    (hdistance : TxPc.distance usbTransferSem pc < TxPc.distance s.usbTransferSem s.pc) :
    s.Nearer writeCmdId bufferAddr accepted log := by
  refine ⟨label, _, hmoves, hstep, h.idle hstep rfl rfl rfl rfl hs ?_ ?_, ?_⟩
  · intro rest
    rcases hpc with rfl | rfl | rfl | rfl
    all_goals exact ⟨fun hholds => hholds.2, fun hrest => ⟨rfl, hrest⟩⟩
  · rcases hpc with rfl | rfl | rfl | rfl
    all_goals exact ⟨by simp, by simp, by simp⟩
  · exact Nat.add_lt_add_left hdistance _

theorem Draining.nearer_top (h : s.Draining accepted log) (hpc : s.pc = .top) :
    s.Nearer writeCmdId bufferAddr accepted log := by
  apply h.nearer_idle .wait s.transferToken s.usbTransferSem s.urbs (.inl ⟨false, rfl⟩)
    (by rw [hpc]; rfl) (.inl rfl)
  · simp only [step, thread, hpc, h.noClear]
    rfl
  · rw [hpc]
    exact Nat.lt_succ_self 5

theorem Draining.nearer_wait (h : s.Draining accepted log) (hpc : s.pc = .wait)
    (hne : s.dev.txData.queue ≠ []) : s.Nearer writeCmdId bufferAddr accepted log := by
  obtain ⟨p, -, hrefines, -⟩ := h.serves
  have henabled : isWriteEnable s.dev = true := by
    rw [isWriteEnable]
    split
    case isTrue => rfl
    case isFalse =>
      rw [if_pos fun hempty => hne ((ringbufferIsEmpty_iff hrefines.wf).mp hempty)]
  apply h.nearer_idle .token s.transferToken s.usbTransferSem s.urbs (.inl ⟨true, rfl⟩)
    (by rw [hpc]; rfl) (.inr (.inl rfl))
  · simp only [step, thread, hpc, henabled]
    rfl
  · rw [hpc]
    exact Nat.lt_succ_self 4

/-- The tokens are refilled. -/
theorem Draining.nearer_token (h : s.Draining accepted log) (hpc : s.pc = .token) :
    s.Nearer writeCmdId bufferAddr accepted log := by
  have hrefill : s.refill = { s with transferToken := s.transferMaxToken * txTokenExpiredTime } := by
    rw [refill, if_neg (Nat.not_lt.mpr h.rate)]
  have htoken : ¬ s.transferMaxToken * txTokenExpiredTime ≤ 0 := by
    have := h.token
    simp only [txTokenExpiredTime]
    omega
  apply h.nearer_idle .down (s.transferMaxToken * txTokenExpiredTime) s.usbTransferSem s.urbs
    (.inl ⟨true, rfl⟩) (by rw [hpc]; rfl) (.inr (.inr (.inl rfl)))
  · simp only [step, thread, hpc, if_true, hrefill, if_neg htoken]
  · rw [hpc]
    simp only [TxPc.distance]
    split <;> omega

/-- A slot is free, or a URB that is in flight gives one back. -/
theorem Draining.nearer_down (h : s.Draining accepted log) (hpc : s.pc = .down) :
    s.Nearer writeCmdId bufferAddr accepted log := by
  rcases Nat.eq_zero_or_pos s.usbTransferSem with hzero | hpos
  · have hslots := h.slots
    have hheld : s.pc.held = 0 := by
      rw [hpc]
      rfl
    have hurbs : s.urbs > 0 := by
      rw [TxSystem.slots, hheld, maxTxUrbs] at hslots
      omega
    apply h.nearer_idle .down s.transferToken (s.usbTransferSem + 1) (s.urbs - 1) (.inr rfl)
      (by rw [hpc]; rfl) (.inr (.inr (.inl rfl)))
    · simp only [step, if_pos hurbs, hpc]
    · rw [hpc, hzero]
      exact Nat.lt_succ_self 2
  · apply h.nearer_idle .header s.transferToken (s.usbTransferSem - 1) s.urbs (.inl ⟨false, rfl⟩)
      (by rw [hpc]; rfl) (.inr (.inr (.inr rfl)))
    · simp only [step, thread, hpc, if_pos hpos]
      rfl
    · rw [hpc]
      simp only [TxPc.distance]
      split <;> omega

/-- However the first bytes look, they leave the ring. -/
theorem removed_readHeader {ring : Ringbuffer} (haddr : bufferAddr ≠ 0) (hwf : ring.Wf)
    (hroom : ring.endPtr + cmdMaxLength < 2 ^ 64) :
    Removed ring cmdMinLength (readHeader bufferAddr ring).2 := by
  simp only [cmdMaxLength] at hroom
  have hread : ReadSpec ring cmdMinLength (ringbufferRawread ring bufferAddr cmdMinLength) :=
    ringbufferRawread_spec hwf haddr (by simp only [cmdMinLength]; omega)
  rw [readHeader]
  dsimp only
  repeat' split
  all_goals exact hread.removed

/-- A step with a frame in the thread's hands. -/
theorem Draining.nearer_frame (h : s.Draining accepted log) {label : TxLabel} {ring : Ringbuffer}
    (hmoves : Moves label) (hstep : s.step writeCmdId bufferAddr label = some t)
    (hserves : ∃ q : Pipeline (List UInt8), q.Reachable ∧ Refines t q ∧
      t.log ++ q.pending.map TxEvent.urb = log)
    (haccepted : t.accepted = s.accepted) (hdev : t.dev = { s.dev with txData := ring })
    (hmax : t.transferMaxToken = s.transferMaxToken)
    (hrunning : t.pc ≠ .clear ∧ t.pc ≠ .cleared ∧ t.pc ≠ .stopped) (hrank : t.rank < s.rank) :
    s.Nearer writeCmdId bufferAddr accepted log := by
  refine ⟨label, t, hmoves, hstep, ⟨hserves, haccepted.trans h.accepted, ?_, ?_, hmax ▸ h.token,
    (slots_step hstep).trans h.slots, hrunning⟩, hrank⟩
  · rw [hdev]
    exact h.noClear
  · rw [hdev]
    exact h.rate

/-- The thread takes a frame. -/
theorem Draining.nearer_header (h : s.Draining accepted log) (haddr : bufferAddr ≠ 0)
    (hpc : s.pc = .header) (hne : s.dev.txData.queue ≠ []) :
    s.Nearer writeCmdId bufferAddr accepted log := by
  obtain ⟨p, hp, hrefines, htotal⟩ := h.serves
  obtain ⟨hread, q, hq, hnext, hleft⟩ := hrefines.header hp haddr hpc
  obtain ⟨buffer, msgLength, hok⟩ : ∃ buffer msgLength,
      (readHeader bufferAddr s.dev.txData).1 = .ok buffer msgLength :=
    hread.resolve_left fun hempty =>
      hne (queue_eq_nil_of_readHeader haddr hrefines.wf hrefines.room hempty)
  have hremoved := removed_readHeader haddr hrefines.wf hrefines.room
  have hheader : s.header bufferAddr = { s with
      dev := { s.dev with txData := (readHeader bufferAddr s.dev.txData).2 }
      pc := .body buffer msgLength cmdMinLength (msgLength - cmdMinLength) } := by
    rw [header]
    generalize readHeader bufferAddr s.dev.txData = r at hok
    obtain ⟨read, ring⟩ := r
    obtain rfl : read = .ok buffer msgLength := hok
    rfl
  have hpending : q.pending = p.pending := by
    obtain ⟨rest, hholds, -⟩ := hrefines.queue
    obtain ⟨rest', hholds', -⟩ := hnext.queue
    rw [hpc] at hholds
    rw [hheader] at hholds'
    obtain ⟨hnone, -⟩ := hholds
    obtain ⟨m, hsome, -⟩ := hholds'
    have haccepted : q.accepted = p.accepted := by
      rw [← hnext.accepted, ← hrefines.accepted, hheader]
    rw [hok] at hleft
    rw [(Pipeline.conserved_of_reachable hq).pending_eq,
      (Pipeline.conserved_of_reachable hp).pending_eq, haccepted, hleft, hsome, hnone]
    rfl
  rw [hheader] at hnext
  refine h.nearer_frame (.inl ⟨false, rfl⟩) (show s.step writeCmdId bufferAddr (.thread false) =
    some _ by simp only [step, thread, hpc, hheader]) ⟨q, hq, hnext, ?_⟩ rfl rfl rfl
    ⟨by simp, by simp, by simp⟩ ?_
  · rw [hpending]
    exact htotal
  · have hlen := List.length_pos_of_ne_nil hne
    simp only [rank, hremoved.queue, List.length_drop, cmdMinLength, TxPc.distance, hpc]
    omega

/-- The rest of the frame is read, and then the frame goes out. -/
theorem Draining.nearer_body (h : s.Draining accepted log) (haddr : bufferAddr ≠ 0)
    (hstack : bufferAddr + cmdMaxLength < 2 ^ 64) {buffer : List UInt8} {msgLength pos remain : ℕ}
    (hpc : s.pc = .body buffer msgLength pos remain) :
    s.Nearer writeCmdId bufferAddr accepted log := by
  obtain ⟨p, hp, hrefines, htotal⟩ := h.serves
  have hstep : s.step writeCmdId bufferAddr (.thread false) =
      some (s.body bufferAddr buffer msgLength pos remain) := by
    simp only [step, thread, hpc]
  rcases Nat.eq_zero_or_pos remain with rfl | hremain
  · have hnext : Refines (s.body bufferAddr buffer msgLength pos 0) p := hrefines.body_done hpc
    have hbody : s.body bufferAddr buffer msgLength pos 0 =
        { s with pc := .submit buffer msgLength } := by
      rw [body, if_neg (Nat.lt_irrefl 0)]
    rw [hbody] at hnext hstep
    refine h.nearer_frame (.inl ⟨false, rfl⟩) hstep ⟨p, hp, hnext, htotal⟩ rfl rfl rfl
      ⟨by simp, by simp, by simp⟩ ?_
    simp only [rank, TxPc.distance, hpc]
    omega
  · obtain ⟨buffer', hbody, -, hnext⟩ := hrefines.body haddr hstack hpc hremain
    obtain ⟨haccepted, hlog, hmax, ring, hdev⟩ :
        (s.body bufferAddr buffer msgLength pos remain).accepted = s.accepted ∧
        (s.body bufferAddr buffer msgLength pos remain).log = s.log ∧
        (s.body bufferAddr buffer msgLength pos remain).transferMaxToken = s.transferMaxToken ∧
        ∃ ring, (s.body bufferAddr buffer msgLength pos remain).dev =
          { s.dev with txData := ring } := by
      rw [body]
      dsimp only
      repeat' split
      all_goals exact ⟨rfl, rfl, rfl, _, rfl⟩
    have hlen : (s.body bufferAddr buffer msgLength pos remain).dev.txData.queue.length + remain =
        s.dev.txData.queue.length := by
      obtain ⟨rest, hholds, hqueue⟩ := hrefines.queue
      obtain ⟨rest', hholds', hqueue'⟩ := hnext.queue
      rw [hpc] at hholds
      rw [hbody] at hholds'
      obtain ⟨m, -, hm, hsum, -, -, rfl⟩ := hholds
      obtain ⟨m', -, hm', -, -, -, rfl⟩ := hholds'
      rw [hqueue, hqueue', List.length_append, List.length_append, List.length_drop,
        List.length_drop, m.encode_length, m'.encode_length]
      omega
    refine h.nearer_frame (.inl ⟨false, rfl⟩) hstep ⟨p, hp, hnext, by rw [hlog, htotal]⟩ haccepted
      hdev hmax ?_ ?_
    · rw [hbody]
      exact ⟨by simp, by simp, by simp⟩
    · simp only [rank, hbody, hpc, TxPc.distance]
      omega

/-- The frame goes out. -/
theorem Draining.nearer_submit (h : s.Draining accepted log) {buffer : List UInt8} {msgLength : ℕ}
    (hpc : s.pc = .submit buffer msgLength) : s.Nearer writeCmdId bufferAddr accepted log := by
  obtain ⟨p, hp, hrefines, htotal⟩ := h.serves
  obtain ⟨q, hq, hnext, hleft⟩ := hrefines.submit hp hpc true
  have hstep : s.step writeCmdId bufferAddr (.thread true) =
      some (s.submit (buffer.take msgLength) true) := by
    simp only [step, thread, hpc]
  refine h.nearer_frame (.inl ⟨true, rfl⟩) hstep ⟨q, hq, hnext, ?_⟩ rfl rfl rfl
    ⟨by simp [submit], by simp [submit], by simp [submit]⟩ ?_
  · obtain ⟨rest, hholds, -⟩ := hrefines.queue
    obtain ⟨rest', hholds', -⟩ := hnext.queue
    rw [hpc] at hholds
    obtain ⟨hhand, -⟩ := hholds
    obtain ⟨hnone, -⟩ := inHand_eq_none hholds' rfl
    have hqueued : q.queued = p.queued := by
      rw [(Pipeline.conserved_of_reachable hq).queued_eq,
        (Pipeline.conserved_of_reachable hp).queued_eq, hleft, ← hnext.accepted,
        ← hrefines.accepted]
      rfl
    rw [← htotal, Pipeline.pending, Pipeline.pending, hnone, hhand, hqueued]
    simp [submit]
  · simp only [rank, submit, hpc, TxPc.distance, if_true]
    omega

/-- There is always a move that brings the thread nearer. -/
theorem Draining.nearer (h : s.Draining accepted log) (haddr : bufferAddr ≠ 0)
    (hstack : bufferAddr + cmdMaxLength < 2 ^ 64) (hnot : ¬ s.Drained) :
    s.Nearer writeCmdId bufferAddr accepted log := by
  have hne (hidle : s.pc.inHand = false) : s.dev.txData.queue ≠ [] :=
    fun hempty => hnot ⟨hempty, hidle⟩
  have hrunning := h.running
  cases hpc : s.pc with
  | top => exact h.nearer_top hpc
  | clear => exact absurd hpc hrunning.1
  | cleared => exact absurd hpc hrunning.2.1
  | wait => exact h.nearer_wait hpc (hne (by rw [hpc]; rfl))
  | token => exact h.nearer_token hpc
  | down => exact h.nearer_down hpc
  | header => exact h.nearer_header haddr hpc (hne (by rw [hpc]; rfl))
  | body buffer msgLength pos remain => exact h.nearer_body haddr hstack hpc
  | submit buffer msgLength => exact h.nearer_submit hpc
  | stopped => exact absurd hpc hrunning.2.2

/-- Once nothing is left the log is complete. -/
theorem Draining.log_eq (h : s.Draining accepted log) (hdrained : s.Drained) : s.log = log := by
  obtain ⟨p, hp, hrefines, htotal⟩ := h.serves
  obtain ⟨rest, hholds, hqueue⟩ := hrefines.queue
  obtain ⟨hnone, rfl⟩ := inHand_eq_none hholds hdrained.2
  have hqueued : p.queued = [] := by
    apply List.eq_nil_iff_forall_not_mem.mpr
    intro f hf
    obtain ⟨m, rfl⟩ := hrefines.eq_encode_of_queued hp hf
    rw [hdrained.1, List.nil_append] at hqueue
    have hnil := List.flatten_eq_nil_iff.mp hqueue.symm m.encode hf
    have hlen := congrArg List.length hnil
    rw [m.encode_length, List.length_nil] at hlen
    exact absurd hlen m.length_pos.ne'
  rw [← htotal, Pipeline.pending, hnone, hqueued]
  simp

/-- Moves alone lead to a state in which nothing is left. -/
theorem Draining.canReach (h : s.Draining accepted log) (haddr : bufferAddr ≠ 0)
    (hstack : bufferAddr + cmdMaxLength < 2 ^ 64) :
    CanReach (step writeCmdId bufferAddr) Moves
      (fun t => t.Draining accepted log ∧ t.Drained) s :=
  canReach_of_rank rank (fun _ hs hnot => hs.nearer haddr hstack hnot) h

end TxSystem

/-! ### The writes of the applications -/

namespace Transmission

variable {υ : Type} {device : FileDevice} {bufferAddr : ℕ} {s t : Transmission υ}

/-- A move of the transmit path. -/
def Moves (label : TransmissionLabel) : Prop := ∃ l, label = .tx l ∧ TxSystem.Moves l

/-- Moves of the transmit path leave the writes as they are. -/
theorem exec_moves {ls : List TxLabel} {tx : TxSystem υ} (hmoves : ∀ l ∈ ls, TxSystem.Moves l)
    (hrun : exec (TxSystem.step device.getWriteCmdId bufferAddr) s.tx ls = some tx) :
    exec (step device bufferAddr) s (ls.map .tx) = some { s with tx := tx } := by
  induction ls generalizing s with
  | nil =>
      cases hrun
      rfl
  | cons l ls ih =>
      obtain ⟨u, hu, hrest⟩ := Option.bind_eq_some_iff.mp hrun
      have hstep : s.step device bufferAddr (.tx l) = some { s with tx := u } := by
        rcases hmoves l List.mem_cons_self with ⟨choice, rfl⟩ | rfl
        all_goals
          rw [step, hu]
          · rfl
          · intro _ _ _ h
            cases h
      rw [List.map_cons, exec_cons, hstep]
      exact @ih { s with tx := u } (fun k hk => hmoves k (List.mem_cons_of_mem l hk)) hrest

theorem slots_step (hslots : s.tx.slots = maxTxUrbs) {label : TransmissionLabel}
    (hstep : s.step device bufferAddr label = some t) : t.tx.slots = maxTxUrbs := by
  cases label with
  | write w =>
      simp only [step] at hstep
      split at hstep
      case isTrue hcopied =>
        cases hstep
        rcases @write_cases _ device s w hcopied with
          hsame | ⟨payload, stored, payloadSize, -, htx, -⟩
        · rw [hsame]
          exact hslots
        · rw [htx]
          exact hslots
      case isFalse => cases hstep
  | tx label =>
      obtain ⟨tx, htx, rfl, -⟩ := step_tx hstep
      exact (TxSystem.slots_step htx).trans hslots

/-- From every state that a run reaches while no clear is requested and the device has room, moves
of the transmit path alone send all that is pending, in the order of the writes. -/
theorem transmission_drains {dev : Dev υ} {transferMaxToken : ℤ} {labels : List TransmissionLabel}
    (hwf : dev.txData.Wf) (hempty : dev.txData.queue = [])
    (hroom : dev.txData.endPtr + cmdMaxLength < 2 ^ 64) (haddr : bufferAddr ≠ 0)
    (hstack : bufferAddr + cmdMaxLength < 2 ^ 64)
    (hrun : exec (step device bufferAddr) (start dev transferMaxToken) labels = some s)
    (hclear : s.tx.dev.txDataClearRequested = false)
    (hrate : s.tx.dev.txBufferRate ≤ txTransferLimitRate) (hmax : 0 < s.tx.transferMaxToken)
    (hrunning : s.tx.pc ≠ .clear ∧ s.tx.pc ≠ .cleared ∧ s.tx.pc ≠ .stopped) :
    ∃ gone pending, s.Ledger device gone pending ∧
      CanReach (step device bufferAddr) Moves (fun t =>
        t.Ledger device (gone ++ pending.map (⟨·, true⟩)) [] ∧ t.tx.dev.txData.queue = []) s := by
  obtain ⟨p, h⟩ := exists_carries hwf hempty hroom haddr hstack hrun
  have hslots : s.tx.slots = maxTxUrbs :=
    exec_invariant (I := fun s => s.tx.slots = maxTxUrbs) (fun _ _ _ hs hstep => slots_step hs hstep)
      rfl hrun
  obtain ⟨gone, pending, hwritten, hstream, hpending⟩ := h.exists_stream
  have hdraining : s.tx.Draining s.tx.accepted (s.tx.log ++ p.pending.map TxEvent.urb) :=
    ⟨⟨p, h.reachable, h.refines, rfl⟩, rfl, hclear, hrate, hmax, hslots, hrunning⟩
  obtain ⟨ls, tx, hmoves, hexec, hend, hdrained⟩ :
      CanReach (TxSystem.step device.getWriteCmdId bufferAddr) TxSystem.Moves _ s.tx :=
    hdraining.canReach haddr hstack
  refine ⟨gone, pending, ledger_of_stream h.fits hwritten hstream fun hidle => ?_, ls.map .tx,
    { s with tx := tx }, ?_, exec_moves hmoves hexec, ?_, hdrained.1⟩
  · rw [h.queue_eq hidle, hpending]
  · intro label hlabel
    obtain ⟨l, hl, rfl⟩ := List.mem_map.mp hlabel
    exact ⟨l, rfl, hmoves l hl⟩
  · have hlog : tx.log = s.tx.log ++ p.pending.map TxEvent.urb := by
      exact hend.log_eq hdrained
    apply @ledger_of_stream _ _ { s with tx := tx } _ _ h.fits
    · rw [List.map_append, List.map_map, List.append_nil]
      refine hwritten.trans ?_
      congr 1
      exact (List.map_id pending).symm
    · have hbytes : tx.urbStream = s.tx.urbStream ++ (pending.map (frame device.getWriteCmdId)).flatten := by
        rw [TxSystem.urbStream, hlog, List.filterMap_append, List.flatten_append, hpending,
          List.filterMap_map]
        congr 2
        exact List.filterMap_some
      have hsent : (pending.map (fun payload => (⟨payload, true⟩ : Departure (List UInt8)))).filter
          (fun d => d.sent) = pending.map (⟨·, true⟩) := by
        apply List.filter_eq_self.mpr
        intro d hd
        obtain ⟨payload, -, rfl⟩ := List.mem_map.mp hd
        rfl
      rw [List.filter_append, hsent, List.map_append, List.map_append, List.flatten_append,
        ← hstream, List.map_map]
      exact hbytes.trans (by rw [List.map_map]; rfl)
    · intro _
      rw [hdrained.1]
      rfl

/-- The second write is sent, too. -/
theorem transmission_drains_twoWrites :
    ∃ s, exec (step .ep1Ch02a 0x40000000) (start TxSystem.smallDev 10) twoWrites = some s ∧
      ∃ gone pending, s.Ledger .ep1Ch02a gone pending ∧
        CanReach (step .ep1Ch02a 0x40000000) Moves (fun t =>
          t.Ledger .ep1Ch02a (gone ++ pending.map (⟨·, true⟩)) [] ∧
            t.tx.dev.txData.queue = []) s := by
  have hrun : (exec (step .ep1Ch02a 0x40000000) (start TxSystem.smallDev 10) twoWrites).any
      (fun s => s.tx.dev.txDataClearRequested = false ∧
        s.tx.dev.txBufferRate ≤ txTransferLimitRate ∧ 0 < s.tx.transferMaxToken ∧
        s.tx.pc ≠ .clear ∧ s.tx.pc ≠ .cleared ∧ s.tx.pc ≠ .stopped) = true := by decide +kernel
  obtain ⟨s, hs, hstate⟩ := (Option.any_eq_true _ _).mp hrun
  obtain ⟨hclear, hrate, hmax, hrunning⟩ := of_decide_eq_true hstate
  exact ⟨s, hs, transmission_drains (wf_ringbufferInit (by decide) (by decide))
    (queue_ringbufferInit _ _) (by decide) (by decide) (by decide) hs hclear hrate hmax hrunning⟩

end Transmission

end AptUsbtrx
