import AptUsbtrx.Model.NetTransmit
import AptUsbtrx.Verification.Transmit.Thread

/-! # The queue of the network interface

`ndo_start_xmit` stops the queue and only the completion of a URB wakes it. The queue stays
stopped when the last pending frame vanishes in another way. -/

namespace AptUsbtrx

open Execution Ep1Cf02a

namespace TxSystem

variable {υ : Type} {s t : TxSystem υ} {p : Pipeline (List UInt8)} {bufferAddr : ℕ}

/-- A frame is in the ring, in the thread's hands or in flight. -/
def Pending (s : TxSystem υ) : Prop :=
  ringbufferIsEmpty s.dev.txData = false ∨ s.pc.inHand = true ∨ 0 < s.urbs

/-- The step of the thread drops what is in its hands or in the ring: a clear, or a URB that is not
set up. -/
def Drops (s : TxSystem υ) (choice : Bool) : Prop :=
  match s.pc with
  | .clear => ringbufferIsEmpty s.dev.txData = false
  | .submit _ _ => choice = false ∧ ringbufferIsEmpty s.dev.txData = true
  | _ => False

theorem isEmpty_eq_false_iff {ring : Ringbuffer} (hw : ring.Wf) :
    ringbufferIsEmpty ring = false ↔ ring.queue ≠ [] := by
  rw [ne_eq, ← ringbufferIsEmpty_iff hw, Bool.not_eq_true]

/-- Ring, thread and URBs keep their frames. -/
theorem pending_congr (hring : t.dev.txData = s.dev.txData) (hpc : t.pc.inHand = s.pc.inHand)
    (hurbs : t.urbs = s.urbs) : t.Pending ↔ s.Pending := by
  rw [Pending, Pending, hring, hpc, hurbs]

/-- The thread takes a frame from the ring when there is one. -/
theorem Refines.pending_header (h : Refines s p) (hp : p.Reachable) (haddr : bufferAddr ≠ 0)
    (hpc : s.pc = .header) : (s.header bufferAddr).Pending ↔ s.Pending := by
  obtain ⟨hread, -⟩ := h.header hp haddr hpc
  have hnone : s.pc.inHand = false := by
    rw [hpc]
    rfl
  by_cases hqueue : s.dev.txData.queue = []
  · obtain ⟨hempty, hremoved⟩ := readHeader_empty haddr h.wf h.room hqueue
    have hqueue' : (readHeader bufferAddr s.dev.txData).2.queue = [] := by
      rw [hremoved.queue, hqueue, List.drop_nil]
    generalize hresult : readHeader bufferAddr s.dev.txData = r at hempty hremoved hqueue'
    obtain ⟨read, ring⟩ := r
    obtain rfl : read = .empty := hempty
    rw [TxSystem.header, hresult]
    simp only [Pending, giveUp, hnone, isEmpty_eq_false_iff hremoved.wf,
      isEmpty_eq_false_iff h.wf, hqueue, hqueue']
    rfl
  · have hpending : s.Pending := .inl ((isEmpty_eq_false_iff h.wf).mpr hqueue)
    refine iff_of_true ?_ hpending
    rcases hread with hempty | ⟨buffer, msgLength, hok⟩
    · exact absurd (queue_eq_nil_of_readHeader haddr h.wf h.room hempty) hqueue
    · rw [TxSystem.header]
      simp only [hok]
      exact .inr (.inl rfl)

/-- A round of the thread keeps a frame pending unless it drops the last one. -/
theorem Refines.pending_thread (h : Refines s p) (hp : p.Reachable) (haddr : bufferAddr ≠ 0)
    (hstack : bufferAddr + cmdMaxLength < 2 ^ 64) {choice : Bool}
    (hstep : s.thread bufferAddr choice = some t) :
    t.Pending ↔ s.Pending ∧ ¬ (s.Drops choice ∧ s.urbs = 0) := by
  have hkept (hdrops : ¬ s.Drops choice) (hpending : t.Pending ↔ s.Pending) :
      t.Pending ↔ s.Pending ∧ ¬ (s.Drops choice ∧ s.urbs = 0) := by
    rw [hpending]
    exact ⟨fun hs => ⟨hs, fun hd => hdrops hd.1⟩, And.left⟩
  cases threadStep_of hstep with
  | stop hpc | toClear hpc | toWait hpc | cleared hpc | enabled hpc | timeout hpc
  | interrupted hpc | down hpc =>
      exact hkept (by simp [Drops, hpc]) (pending_congr rfl (by rw [hpc]; rfl) rfl)
  | noToken hpc htokens | hasToken hpc htokens =>
      refine hkept (by simp [Drops, hpc]) ?_
      rw [htokens]
      cases choice
      all_goals exact pending_congr rfl (by rw [hpc]; rfl) rfl
  | clear hpc =>
      have hempty : ringbufferIsEmpty (ringbufferClear s.dev.txData) = true :=
        beq_self_eq_true s.dev.txData.beginPtr
      simp only [Pending, Drops, hpc, hempty, TxPc.inHand]
      simp only [Bool.true_eq_false, Bool.false_eq_true, false_or]
      constructor
      · intro hurbs
        exact ⟨.inr hurbs, fun hd => Nat.ne_of_gt hurbs hd.2⟩
      · rintro ⟨hring | hurbs, hkept⟩
        · exact Nat.pos_of_ne_zero fun hzero => hkept ⟨hring, hzero⟩
        · exact hurbs
  | header hpc => exact hkept (by simp [Drops, hpc]) (h.pending_header hp haddr hpc)
  | @body _ buffer msgLength pos remain hpc =>
      have hdrops : ¬ s.Drops choice := by simp [Drops, hpc]
      have hin : s.pc.inHand = true := by
        rw [hpc]
        rfl
      refine iff_of_true (.inr (.inl ?_)) ⟨.inr (.inl hin), fun hd => hdrops hd.1⟩
      rcases Nat.eq_zero_or_pos remain with rfl | hremain
      · rfl
      · obtain ⟨buffer', hbody, -⟩ := h.body haddr hstack hpc hremain
        rw [hbody]
        rfl
  | submit hpc =>
      have hin : s.pc.inHand = true := by
        rw [hpc]
        rfl
      have hpending : s.Pending := .inr (.inl hin)
      cases choice with
      | true =>
          refine iff_of_true (.inr (.inr (Nat.succ_pos s.urbs))) ⟨hpending, ?_⟩
          simp only [Drops, hpc]
          rintro ⟨⟨hchoice, -⟩, -⟩
          cases hchoice
      | false =>
          have hdrops : s.Drops false ↔ ringbufferIsEmpty s.dev.txData = true := by
            simp only [Drops, hpc, true_and]
          rw [hdrops, and_iff_right hpending, not_and_or, Bool.not_eq_true, ← ne_eq,
            ← Nat.pos_iff_ne_zero]
          simp [Pending, TxSystem.submit, giveUp, TxPc.inHand]

end TxSystem

namespace SlotSystem

variable {υ ι : Type} {s t : SlotSystem υ ι}

/-- The other users of the slots leave the ring and the transmit thread alone. -/
structure Keeps (s t : SlotSystem υ ι) : Prop where
  ring : t.tx.dev.txData = s.tx.dev.txData
  pc : t.tx.pc = s.tx.pc
  accepted : t.tx.accepted = s.tx.accepted
  log : t.tx.log = s.tx.log
  urbs : s.tx.urbs ≤ t.tx.urbs

theorem Keeps.refines (h : Keeps s t) {p : Pipeline (List UInt8)} (hrefines : s.tx.Refines p) :
    t.tx.Refines p :=
  hrefines.of_eq h.ring h.accepted h.log fun rest hholds => by
    rw [h.pc]
    exact hholds

theorem Keeps.pending (h : Keeps s t) (hpending : s.tx.Pending) : t.tx.Pending := by
  rw [TxSystem.Pending] at hpending ⊢
  rw [h.ring, h.pc]
  exact hpending.imp_right fun hrest => hrest.imp_right fun hurbs => hurbs.trans_le h.urbs

/-- The ring holds a queue of frames. -/
def Served (s : SlotSystem υ ι) : Prop :=
  ∃ p : Pipeline (List UInt8), p.Reachable ∧ s.tx.Refines p

theorem served_start {dev : Dev υ} (hw : dev.txData.Wf) (hempty : dev.txData.queue = [])
    (hroom : dev.txData.endPtr + cmdMaxLength < 2 ^ 64) (maxToken : ℤ) :
    (start dev maxToken : SlotSystem υ ι).Served :=
  ⟨.empty, .refl, TxSystem.refines_start hw hempty hroom maxToken⟩

variable [DecidableEq ι]

theorem keeps_advance {fwSize : ℕ} {i : ι} {ok : Bool} {msg : Msg}
    (hstep : s.advance fwSize i ok msg = some t) : Keeps s t := by
  rw [advance] at hstep
  have hle := Nat.le_refl s.tx.urbs
  cases hpc : s.threads i with
  | idle ret =>
      rw [hpc] at hstep
      cases hstep
  | fwUp | probeUp =>
      rw [hpc] at hstep
      cases hstep
      exact ⟨rfl, rfl, rfl, rfl, hle⟩
  | fwSubmit data =>
      rw [hpc] at hstep
      simp only at hstep
      split at hstep
      · cases hstep
        exact ⟨rfl, rfl, rfl, rfl, Nat.le_succ s.tx.urbs⟩
      · cases hstep
        exact ⟨rfl, rfl, rfl, rfl, hle⟩
  | fwDown payload | fwPack payload | probeClear | probe =>
      rw [hpc] at hstep
      simp only at hstep
      repeat' split at hstep
      all_goals
        first
        | cases hstep; exact ⟨rfl, rfl, rfl, rfl, hle⟩
        | cases hstep

variable {writeCmdId : UInt8} {bufferAddr fwSize : ℕ} {label : SlotLabel ι}

/-- A step is one of the transmit path or leaves it alone. -/
theorem step_cases (hstep : s.step writeCmdId bufferAddr fwSize label = some t) :
    (∃ l tx, label = .tx l ∧ s.tx.step writeCmdId bufferAddr l = some tx ∧
      t = { s with tx := tx }) ∨
    (∀ l, label ≠ .tx l) ∧ Keeps s t := by
  cases label with
  | tx l =>
      obtain ⟨tx, htx, rfl⟩ := Option.map_eq_some_iff.mp hstep
      exact .inl ⟨l, tx, rfl, htx, rfl⟩
  | writeFwData i payload copied =>
      refine .inr ⟨by rintro l ⟨⟩, ?_⟩
      simp only [step] at hstep
      repeat' split at hstep
      all_goals
        first
        | cases hstep; exact ⟨rfl, rfl, rfl, rfl, Nat.le_refl s.tx.urbs⟩
        | cases hstep
  | stopCanInterface i =>
      refine .inr ⟨by rintro l ⟨⟩, ?_⟩
      simp only [step] at hstep
      split at hstep
      · cases hstep
        exact ⟨rfl, rfl, rfl, rfl, Nat.le_refl s.tx.urbs⟩
      · cases hstep
  | advance i ok msg => exact .inr ⟨by rintro l ⟨⟩, keeps_advance hstep⟩

theorem Served.step (h : s.Served) (haddr : bufferAddr ≠ 0)
    (hstack : bufferAddr + cmdMaxLength < 2 ^ 64)
    (hstep : s.step writeCmdId bufferAddr fwSize label = some t) : t.Served := by
  obtain ⟨p, hp, hrefines⟩ := h
  rcases step_cases hstep with ⟨l, tx, -, htx, rfl⟩ | ⟨-, hkeeps⟩
  · exact hrefines.step hp haddr hstack htx
  · exact ⟨p, hp, hkeeps.refines hrefines⟩

end SlotSystem

namespace NetTxSystem

variable {υ ι : Type} {s t : NetTxSystem υ ι}

/-- A frame is in the ring, in the thread's hands, in flight, or its completion is about to wake the
queue. -/
def Pending (s : NetTxSystem υ ι) : Prop := s.slots.tx.Pending ∨ 0 < s.waking

/-- When the queue is stopped and no `ndo_start_xmit` is under way, there is a frame whose completion
will wake it. -/
def Serviced (s : NetTxSystem υ ι) : Prop :=
  s.queueStopped = true → s.xmit = none → s.Pending

/-- `apt_usbtrx_write_tx_rb` turns the frame down. -/
def Refuses (dev : Dev υ) : Prop :=
  dev.onopening = true ∨ dev.onclosing = true ∨
    ¬ dev.txData.Fits (payloadLengthToMsg sendCfSize.toNat)

/-- The step takes away the last frame that would have woken a stopped queue: its write is turned
down, the ring is cleared, or its URB is not set up. -/
def Strands (s : NetTxSystem υ ι) : NetTxLabel ι → Prop
  | .writeTxRb _ => s.queueStopped = true ∧ Refuses s.slots.tx.dev ∧ ¬ s.Pending
  | .slots (.tx (.thread choice)) =>
      s.queueStopped = true ∧ s.xmit = none ∧ s.slots.tx.Drops choice ∧ s.slots.tx.urbs = 0 ∧
        s.waking = 0
  | _ => False

/-- After the write the ring is empty only if it was and the frame was turned down. -/
theorem isEmpty_writeTxRb {dev : Dev υ} (hw : dev.txData.Wf)
    (hroom : dev.txData.endPtr + cmdMaxLength < 2 ^ 64) (payload : List UInt8) (msg : Msg) :
    ringbufferIsEmpty (AptUsbtrx.writeTxRb cmdSendCANFrame dev payload sendCfSize msg).2.txData =
        true ↔ ringbufferIsEmpty dev.txData = true ∧ Refuses dev := by
  rw [Refuses]
  by_cases hopening : dev.onopening = true
  · rw [AptUsbtrx.writeTxRb, if_neg (by decide), if_pos hopening]
    exact (and_iff_left (.inl hopening)).symm
  by_cases hclosing : dev.onclosing = true
  · rw [AptUsbtrx.writeTxRb, if_neg (by decide), if_neg hopening, if_pos hclosing]
    exact (and_iff_left (.inr (.inl hclosing))).symm
  rcases writeTxRb_cases cmdSendCANFrame hw hroom payload msg (by decide) hopening hclosing
    (show sendCfSize.toNat ≤ maxPayload by decide) with
    ⟨hfits, -, hwritten⟩ | ⟨hfits, -, hsame | hskip⟩
  · have hne : packed (writeMsg cmdSendCANFrame payload sendCfSize msg) ≠ [] :=
      List.ne_nil_of_length_pos (Nat.succ_pos _)
    rw [ringbufferIsEmpty_iff hwritten.wf, hwritten.queue]
    simp [hopening, hclosing, hfits, hne]
  · rw [hsame]
    exact (and_iff_left (.inr (.inr hfits))).symm
  · rw [hskip]
    exact (and_iff_left (.inr (.inr hfits))).symm

theorem serviced_writeTxRb (hserved : s.slots.Served) {msg : Msg}
    (hstep : s.writeTxRb msg = some t) : t.Serviced ↔ ¬ s.Strands (.writeTxRb msg) := by
  obtain ⟨p, -, hrefines⟩ := hserved
  obtain ⟨payload, -, rfl⟩ := Option.map_eq_some_iff.mp hstep
  have hempty := isEmpty_writeTxRb hrefines.wf hrefines.room payload msg
  simp only [Serviced, Strands, Pending, TxSystem.Pending, TxSystem.write, ← Bool.not_eq_true,
    hempty]
  grind

variable [DecidableEq ι] {bufferAddr fwSize : ℕ}

theorem serviced_slots (hserved : s.slots.Served) (hs : s.Serviced) (haddr : bufferAddr ≠ 0)
    (hstack : bufferAddr + cmdMaxLength < 2 ^ 64) {label : SlotLabel ι}
    (hstep : s.step bufferAddr fwSize (.slots label) = some t) :
    t.Serviced ↔ ¬ s.Strands (.slots label) := by
  obtain ⟨p, hp, hrefines⟩ := hserved
  simp only [step] at hstep
  split at hstep
  case isTrue => cases hstep
  case isFalse hwrites =>
    obtain ⟨slots, hslots, rfl⟩ := Option.map_eq_some_iff.mp hstep
    rcases SlotSystem.step_cases hslots with ⟨l, tx, rfl, htx, rfl⟩ | ⟨hother, hkeeps⟩
    · cases l with
      | write payload payloadSize msg => exact absurd rfl hwrites
      | requestClear | atomicSet onopening onclosing txBufferRate =>
          cases htx
          exact iff_of_true hs not_false
      | writeBulkCallback =>
          refine iff_of_true ?_ not_false
          intro _ _
          exact .inr (Nat.succ_pos s.waking)
      | thread choice =>
          have hpending := hrefines.pending_thread hp haddr hstack htx
          simp only [Serviced, Pending, Strands, completes, hpending, Nat.pos_iff_ne_zero] at hs ⊢
          grind
    · have hstrands : ¬ s.Strands (.slots label) := by
        cases label with
        | tx l => exact absurd rfl (hother l)
        | writeFwData | stopCanInterface | advance => exact not_false
      refine iff_of_true ?_ hstrands
      intro hstopped hxmit
      rcases hs hstopped hxmit with hpending | hwaking
      · exact .inl (hkeeps.pending hpending)
      · refine .inr (hwaking.trans_le ?_)
        dsimp only
        split
        · exact Nat.le_succ s.waking
        · exact Nat.le_refl s.waking

/-- From a serviced state a step leads to a serviced state unless it strands the queue. -/
theorem serviced_step (hserved : s.slots.Served) (hs : s.Serviced) (haddr : bufferAddr ≠ 0)
    (hstack : bufferAddr + cmdMaxLength < 2 ^ 64) {label : NetTxLabel ι}
    (hstep : s.step bufferAddr fwSize label = some t) : t.Serviced ↔ ¬ s.Strands label := by
  cases label with
  | startXmit silent dropped skb =>
      simp only [step, startXmit] at hstep
      refine iff_of_true ?_ not_false
      split at hstep
      case isTrue => cases hstep
      case isFalse =>
        repeat' split at hstep
        all_goals cases hstep
        · exact hs
        · exact hs
        · intro _ hxmit
          cases hxmit
  | writeTxRb msg => exact serviced_writeTxRb hserved hstep
  | wakeQueue =>
      simp only [step] at hstep
      split at hstep
      case isTrue =>
        cases hstep
        refine iff_of_true ?_ not_false
        intro hstopped
        cases hstopped
      case isFalse => cases hstep
  | startCanInterface =>
      cases hstep
      exact iff_of_true hs not_false
  | slots label => exact serviced_slots hserved hs haddr hstack hstep

theorem served_step (hserved : s.slots.Served) (haddr : bufferAddr ≠ 0)
    (hstack : bufferAddr + cmdMaxLength < 2 ^ 64) {label : NetTxLabel ι}
    (hstep : s.step bufferAddr fwSize label = some t) : t.slots.Served := by
  cases label with
  | startXmit silent dropped skb =>
      simp only [step, startXmit] at hstep
      repeat' split at hstep
      all_goals
        first
        | cases hstep; exact hserved
        | cases hstep
  | writeTxRb msg =>
      obtain ⟨p, hp, hrefines⟩ := hserved
      obtain ⟨payload, -, rfl⟩ := Option.map_eq_some_iff.mp hstep
      obtain ⟨q, hq, hwritten, -⟩ := hrefines.write hp cmdSendCANFrame payload sendCfSize msg
      exact ⟨q, hq, hwritten⟩
  | wakeQueue =>
      simp only [step] at hstep
      split at hstep
      · cases hstep
        exact hserved
      · cases hstep
  | startCanInterface =>
      obtain ⟨p, hp, hrefines⟩ := hserved
      cases hstep
      exact ⟨p, hp, hrefines.of_eq rfl rfl rfl fun _ hholds => hholds⟩
  | slots label =>
      simp only [step] at hstep
      split at hstep
      case isTrue => cases hstep
      case isFalse =>
        obtain ⟨slots, hslots, rfl⟩ := Option.map_eq_some_iff.mp hstep
        exact hserved.step haddr hstack hslots

/-- From the moment the interface is up, the queue is never left stopped with nothing pending
exactly when no step strands it. -/
theorem serviced_iff {dev : Dev υ} (hw : dev.txData.Wf) (hempty : dev.txData.queue = [])
    (hroom : dev.txData.endPtr + cmdMaxLength < 2 ^ 64) (haddr : bufferAddr ≠ 0)
    (hstack : bufferAddr + cmdMaxLength < 2 ^ 64) {writeCmdId : UInt8} {maxToken : ℤ}
    {before : List (SlotLabel ι)} {slots : SlotSystem υ ι}
    (hup : exec (SlotSystem.step writeCmdId bufferAddr fwSize) (SlotSystem.start dev maxToken)
      before = some slots) {labels : List (NetTxLabel ι)}
    (hrun : exec (step bufferAddr fwSize) (netdevOpen slots) labels = some s) :
    (∀ done t, done <+: labels → exec (step bufferAddr fwSize) (netdevOpen slots) done = some t →
      t.Serviced) ↔
      AllSteps (step bufferAddr fwSize) (fun s label => ¬ s.Strands label) (netdevOpen slots)
        labels := by
  have hserved : slots.Served :=
    exec_invariant (fun _ _ _ h hstep => h.step haddr hstack hstep)
      (SlotSystem.served_start hw hempty hroom maxToken) hup
  refine allSteps_iff_forall_prefix (I := fun s => s.slots.Served) ?_ ?_ hserved ?_ hrun
  · intro s label t h hstep
    exact served_step h haddr hstack hstep
  · intro s label t h hs hstep
    exact serviced_step h hs haddr hstack hstep
  · intro hstopped
    cases hstopped

/-! ### A restart and an undisturbed frame -/

instance (s : TxSystem υ) : Decidable s.Pending := by
  unfold TxSystem.Pending
  infer_instance

instance (s : TxSystem υ) (choice : Bool) : Decidable (s.Drops choice) := by
  unfold TxSystem.Drops
  split <;> infer_instance

instance (dev : Dev υ) : Decidable (Refuses dev) := by
  unfold Refuses Ringbuffer.Fits
  infer_instance

omit [DecidableEq ι] in
instance (s : NetTxSystem υ ι) : Decidable s.Pending := by
  unfold Pending
  infer_instance

instance (s : NetTxSystem υ ι) (label : NetTxLabel ι) : Decidable (s.Strands label) := by
  unfold Strands
  split <;> infer_instance

/-- A unit that is up. -/
def upDev (txDataSize : ℕ) : Dev Unit :=
  { Dev.probed 0x10000000 64 0x20000000 ⟨0, 0⟩ () with
    onopening := false
    txData := ringbufferInit 0x20000000 txDataSize }

/-- The frame `123#AA`. -/
def txSkb : TxSkb := ⟨false, 0x123, 1, 0, [0xAA]⟩

/-- A frame is queued and a restart clears the ring. -/
def restartRun : List (NetTxLabel Unit) :=
  [.startXmit false false txSkb, .writeTxRb Msg.zero, .slots (.stopCanInterface ()),
    .slots (.tx (.thread false)), .slots (.tx (.thread false)), .slots (.tx (.thread false)),
    .slots (.advance () true Msg.zero), .slots (.advance () true Msg.zero),
    .slots (.advance () true Msg.zero), .startCanInterface]

/-- The restart is done, the queue is stopped and nothing will wake it. -/
theorem restart_leaves_queue_stopped : ∃ s : NetTxSystem Unit Unit,
    exec (step 0x40000000 0) (netdevOpen (SlotSystem.start (upDev txdataBufferSize) 4))
        restartRun = some s ∧
      s.slots.threads () = .idle 0 ∧ s.queueStopped = true ∧ s.xmit = none ∧ ¬ s.Pending := by
  have hrun : (exec (step 0x40000000 0)
      (netdevOpen (SlotSystem.start (upDev txdataBufferSize) 4)) restartRun).any
      (fun s => s.slots.threads () = .idle 0 ∧ s.queueStopped = true ∧ s.xmit = none ∧
        ¬ s.Pending) = true := by decide +kernel
  obtain ⟨s, hs, hstate⟩ := (Option.any_eq_true _ _).mp hrun
  exact ⟨s, hs, of_decide_eq_true hstate⟩

/-- The thread sends the frame and its completion wakes the queue. -/
def sentRun : List (NetTxLabel Unit) :=
  [.startXmit false false txSkb, .writeTxRb Msg.zero, .slots (.tx (.thread false)),
    .slots (.tx (.thread true)), .slots (.tx (.thread true)), .slots (.tx (.thread false)),
    .slots (.tx (.thread false)), .slots (.tx (.thread false)), .slots (.tx (.thread false)),
    .slots (.tx (.thread true)), .slots (.tx .writeBulkCallback), .wakeQueue]

theorem serviced_iff_sentRun : ∃ t : NetTxSystem Unit Unit,
    exec (step 0x40000000 0) (netdevOpen (SlotSystem.start (upDev 128) 4)) sentRun = some t ∧
      t.Serviced := by
  have hrun : (exec (step 0x40000000 0) (netdevOpen (SlotSystem.start (upDev 128) 4))
      sentRun).isSome = true := by decide +kernel
  obtain ⟨s, hs⟩ := Option.isSome_iff_exists.mp hrun
  have hup : exec (SlotSystem.step 0 0x40000000 0) (SlotSystem.start (upDev 128) 4) [] =
      some (SlotSystem.start (upDev 128) 4 : SlotSystem Unit Unit) := rfl
  have hserviced := (serviced_iff (wf_ringbufferInit (by decide) (by decide))
    (queue_ringbufferInit _ _) (by decide) (by decide) (by decide) hup hs).mpr (by decide +kernel)
  exact ⟨s, hs, hserviced sentRun s (List.prefix_refl _) hs⟩

end NetTxSystem

end AptUsbtrx
