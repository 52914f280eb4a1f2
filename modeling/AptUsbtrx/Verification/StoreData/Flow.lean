import AptUsbtrx.Shared.Execution
import AptUsbtrx.Verification.StoreData.Steps

/-! # The flow control of a store-data transfer

What is in the ring never exceeds the received size, and the received size and the rest of
the batch never exceed what the ring can hold. -/

namespace AptUsbtrx

open Memory Execution

namespace Ep1Cf02a

/-- The number of frames that fit into the ring. -/
def framesPerRequest : ℕ := (storeDataBufferSize - 1) / payloadNotifyRecvCanFrameSize

/-- The store-data ring and the batch size of the unit. `2 ^ 31` is the space behind the ring. -/
structure StoreReady (dev : Dev UniqueData) : Prop where
  wf : dev.uniqueData.rxStoreData.Wf
  bufferSize : dev.uniqueData.rxStoreData.bufferSize = storeDataBufferSize
  room : dev.uniqueData.rxStoreData.endPtr + 2 ^ 31 ≤ 2 ^ 64
  count : dev.uniqueData.canFrameCountPerRequest = framesPerRequest
  ongoing : dev.rxOngoing = true

theorem storeReady_opened : StoreReady opened where
  wf := wf_ringbufferInit (by decide) (by decide)
  bufferSize := rfl
  room := by decide
  count := rfl
  ongoing := rfl

/-- A `copy_to_user` that refuses blocks above `INT_MAX` and has no other fault. -/
def copyUpToIntMax (_dst n : ℕ) : Bool := decide (n < 2 ^ 31)

theorem lt_of_copyUpToIntMax {dst n : ℕ} (h : copyUpToIntMax dst n = true) : n < 2 ^ 31 :=
  of_decide_eq_true h

theorem copyUpToIntMax_storeDataBufferSize (dst n : ℕ) (hn : n ≤ storeDataBufferSize) :
    copyUpToIntMax dst n = true :=
  decide_eq_true (hn.trans_lt (by decide))

theorem atomicAdd_of_lt {v i : ℤ} (hv : 0 ≤ v) (hi : 0 ≤ i) (h : v + i < 2 ^ 31) :
    atomicAdd v i = v + i := by
  rw [atomicAdd, Int.bmod_eq_of_le] <;> omega

namespace StoreSystem

variable {copyToUser : ℕ → ℕ → Bool} {s : StoreSystem}

/-- A start was taken by the device, or its ioctl is running. -/
def Begun (s : StoreSystem) : Prop := s.started = true ∨ s.pc ≠ .idle

/-- The received size and the rest of the batch. -/
structure Balance (s : StoreSystem) : Prop where
  used_le : (s.ring.queue.length : ℤ) ≤ s.received
  batch : s.received + 78 * s.quota = 78 * framesPerRequest ∨ s.received = 0 ∧ s.quota = 0

/-- What the ioctl knows where it stands. -/
def Phase (s : StoreSystem) : Prop :=
  match s.pc with
  | .startSend => s.received = 0 ∧ s.started = false
  | .wait _ count => count < 2 ^ 64
  | .ringRead _ count => count < 2 ^ 64 ∧
      (s.dev.onclosing = true ∨ s.isComplete = true ∨ s.quota = 0)
  | .checkComplete _ _ => s.isComplete = true ∨ s.quota = 0
  | .checkEmpty _ _ => s.quota = 0
  | .reset _ _ => s.quota = 0 ∧ s.ring.queue = []
  | .request _ _ => s.quota = 0 ∧ s.ring.queue = [] ∧ s.received = 0
  | .idle | .startAck _ | .requestAck _ _ _ => True

/-- Before the device takes a start there is nothing. -/
structure Unstarted (s : StoreSystem) : Prop where
  quota : s.quota = 0
  delivered : s.delivered = []
  out : ∀ r ∈ s.results, r.out = []
  pc : s.pc = .idle ∨ s.pc = .startSend ∨ s.pc = .startAck false

structure Flow (s : StoreSystem) : Prop where
  ready : StoreReady s.dev
  rejected : s.rejected = 0
  unstarted : s.started = false → Unstarted s
  balance : Begun s → Balance s
  phase : Phase s

/-- Frames are on their way only after a start. -/
theorem Flow.started_of_quota (h : Flow s) (hquota : 0 < s.quota) : s.started = true := by
  by_contra hstarted
  have := (h.unstarted (by simpa using hstarted)).quota
  omega

/-- The next frame of a batch fits into the ring. -/
theorem Flow.frame_fits (h : Flow s) (hquota : 0 < s.quota) :
    s.ring.queue.length + 78 < s.ring.bufferSize ∧ 0 ≤ s.received ∧ s.received + 78 < 2 ^ 31 := by
  obtain ⟨hused, hbatch⟩ := h.balance (.inl (h.started_of_quota hquota))
  have hsize : s.ring.bufferSize = 32768 := h.ready.bufferSize
  have hframes : framesPerRequest = 420 := by decide
  rw [hframes] at hbatch
  rw [hsize]
  omega

/-- What the arrival of a frame does. -/
structure DeliverSpec (s : StoreSystem) (f : StoreFrame) (store : List StoreFrame)
    (t : StoreSystem) : Prop where
  wf : t.ring.Wf
  queue : t.ring.queue = s.ring.queue ++ f.val
  bufferSize : t.ring.bufferSize = s.ring.bufferSize
  endPtr : t.ring.endPtr = s.ring.endPtr
  received : t.received = s.received + 78
  quota : t.quota = s.quota - 1
  rejected : t.rejected = s.rejected
  started : t.started = s.started
  pc : t.pc = s.pc
  results : t.results = s.results
  delivered : t.delivered = s.delivered ++ [f]
  store : t.store = store
  isComplete : t.isComplete = s.isComplete
  onopening : t.dev.onopening = s.dev.onopening
  onclosing : t.dev.onclosing = s.dev.onclosing
  rxOngoing : t.dev.rxOngoing = s.dev.rxOngoing
  count : t.dev.uniqueData.canFrameCountPerRequest = s.dev.uniqueData.canFrameCountPerRequest

theorem Flow.deliver (h : Flow s) (hquota : 0 < s.quota) (f : StoreFrame)
    (store : List StoreFrame) : DeliverSpec s f store (s.deliver f store) := by
  obtain ⟨hfits, hreceived, hlt⟩ := h.frame_fits hquota
  have hready := h.ready
  have hroom : s.ring.endPtr + 78 < 2 ^ 64 := by
    have : s.ring.endPtr + 2 ^ 31 ≤ 2 ^ 64 := hready.room
    omega
  obtain ⟨hret, hwritten⟩ := ringbufferWrite_of_fits hready.wf f.property hroom (fits_of_lt hfits)
  have hdispatch := dispatchMsg_storeFrame hready.ongoing (frameBytes f.msg) f
  rw [hret, if_pos (by decide)] at hdispatch
  have hadd : atomicAdd s.received (78 : ℕ) = s.received + 78 := atomicAdd_of_lt hreceived
    (by decide) hlt
  refine ⟨?_, ?_, ?_, ?_, ?_, rfl, ?_, rfl, rfl, rfl, rfl, rfl, ?_, ?_, ?_, ?_, ?_⟩ <;>
    simp only [StoreSystem.deliver, StoreSystem.dispatch, ring, received, isComplete, hdispatch]
  · exact hwritten.wf
  · exact hwritten.queue
  · exact hwritten.bufferSize
  · rw [hwritten.wf.end_eq, hwritten.beginPtr, hwritten.bufferSize, hready.wf.end_eq]
  · exact hadd
  · rw [f.property, hret, if_neg (by decide)]

/-! ### Every step keeps the flow -/

theorem Flow.started_of_pc (h : Flow s) (hidle : s.pc ≠ .idle) (hsend : s.pc ≠ .startSend)
    (hack : s.pc ≠ .startAck false) : s.started = true := by
  by_contra hstarted
  rcases (h.unstarted (by simpa using hstarted)).pc with hpc | hpc | hpc
  · exact hidle hpc
  · exact hsend hpc
  · exact hack hpc

theorem Flow.setPc (h : Flow s) (hstarted : s.started = true) {pc : IoctlPc}
    (hphase : Phase (s.setPc pc)) : Flow (s.setPc pc) where
  ready := h.ready
  rejected := h.rejected
  unstarted hnot := nomatch hstarted.symm.trans hnot
  balance _ := ⟨(h.balance (.inl hstarted)).1, (h.balance (.inl hstarted)).2⟩
  phase := hphase

theorem Flow.ret (h : Flow s) (ret : ℤ) {out : List UInt8}
    (hout : s.started = false → out = []) : Flow (s.ret ret out) where
  ready := h.ready
  rejected := h.rejected
  unstarted hnot := by
    have hun := h.unstarted hnot
    refine ⟨hun.quota, hun.delivered, ?_, .inl rfl⟩
    intro r hr
    rcases List.mem_append.mp hr with hr | hr
    · exact hun.out r hr
    · rw [List.mem_singleton.mp hr]
      exact hout hnot
  balance hbegun := by
    have hstarted : s.started = true := hbegun.resolve_right fun hpc => hpc rfl
    exact ⟨(h.balance (.inl hstarted)).1, (h.balance (.inl hstarted)).2⟩
  phase := trivial

/-- The ring after a read. -/
def setRing (s : StoreSystem) (ring : Ringbuffer) : StoreSystem :=
  s.setUniqueData { s.dev.uniqueData with rxStoreData := ring }

theorem Flow.setRing (h : Flow s) (hstarted : s.started = true) {n : ℕ} {ring : Ringbuffer}
    (hremoved : Removed s.ring n ring) (hphase : Phase (s.setRing ring)) :
    Flow (s.setRing ring) where
  ready :=
    { wf := hremoved.wf
      bufferSize := hremoved.bufferSize.trans h.ready.bufferSize
      room := by
        have hend : ring.endPtr = s.ring.endPtr := by
          rw [hremoved.wf.end_eq, hremoved.beginPtr, hremoved.bufferSize]
          exact h.ready.wf.end_eq.symm
        change ring.endPtr + 2 ^ 31 ≤ 2 ^ 64
        rw [hend]
        exact h.ready.room
      count := h.ready.count
      ongoing := h.ready.ongoing }
  rejected := h.rejected
  unstarted hnot := nomatch hstarted.symm.trans hnot
  balance _ := by
    obtain ⟨hused, hbatch⟩ := h.balance (.inl hstarted)
    refine ⟨?_, hbatch⟩
    have hlen : ring.queue.length ≤ s.ring.queue.length := by
      rw [hremoved.queue, List.length_drop]
      omega
    change (ring.queue.length : ℤ) ≤ s.received
    omega
  phase := hphase

/-- The read of the ring by the ioctl: it fails and leaves the ring as it is, or it hands
the oldest bytes to the application. -/
theorem Flow.readRing_cases (h : Flow s) (hcopy : ∀ dst n, copyToUser dst n = true → n < 2 ^ 31)
    (buffer : ℕ) {count : ℕ} (hcount : count < 2 ^ 64) (copied : Bool) :
    (∃ ret < 0, s.readRing copyToUser buffer count copied = s.ret ret []) ∨
      s.dev.onclosing = false ∧ ∃ r, ReadSpec s.ring count r ∧
        s.readRing copyToUser buffer count copied =
          if copied then (s.setRing r.ring).setPc (.checkComplete r.ret r.out)
          else (s.setRing r.ring).ret (-efault) r.out := by
  rw [readRing]
  by_cases hclosing : s.dev.onclosing = true
  · rw [if_pos hclosing]
    exact .inl ⟨-eshutdown, by decide, rfl⟩
  rw [if_neg hclosing]
  rcases ringbufferReadWith_of_bounded h.ready.wf h.ready.room hcopy buffer hcount with
    hread | ⟨hret, hring⟩
  · refine .inr ⟨by simpa using hclosing, _, hread, ?_⟩
    have hret : (ringbufferRead copyToUser s.dev.uniqueData.rxStoreData buffer count).ret =
        min count s.ring.queue.length := hread.ret
    dsimp only
    rw [if_neg (by omega)]
    rfl
  · refine .inl ⟨-eio, by decide, ?_⟩
    have hneg : (ringbufferRead copyToUser s.dev.uniqueData.rxStoreData buffer count).ret < 0 := by
      change (ringbufferReadWith _ s.dev.uniqueData.rxStoreData _ _).ret < 0
      rw [show (ringbufferReadWith _ s.dev.uniqueData.rxStoreData _ _).ret = _ from hret]
      decide
    dsimp only
    rw [if_pos hneg]
    rw [show (ringbufferRead copyToUser s.dev.uniqueData.rxStoreData buffer count).ring = _ from
      hring]
    rfl

/-- Whether the wait may end says how far the batch is. -/
theorem Flow.quota_eq_zero_of_enabled (h : Flow s) (hstarted : s.started = true)
    (henabled : rxStoreDataIsReadEnable s.dev = true) :
    s.dev.onclosing = true ∨ s.isComplete = true ∨ s.quota = 0 := by
  by_cases hclosing : s.dev.onclosing = true
  · exact .inl hclosing
  by_cases hcomplete : s.dev.uniqueData.notifyStoreDataRecvCanFrameComplete = true
  · exact .inr (.inl hcomplete)
  refine .inr (.inr ?_)
  obtain ⟨hused, hbatch⟩ := h.balance (.inl hstarted)
  rw [rxStoreDataIsReadEnable, if_neg hclosing] at henabled
  dsimp only at henabled
  rw [if_neg hcomplete, h.ready.count] at henabled
  have hframes : framesPerRequest = 420 := by decide
  rw [hframes] at hbatch henabled
  have hmod : s.received % 2 ^ 64 = s.received := Int.emod_eq_of_lt (by omega) (by omega)
  rw [show s.dev.uniqueData.receivedStoreDataSize % 2 ^ 64 = s.received from hmod,
    show payloadNotifyRecvCanFrameSize = 78 from rfl] at henabled
  have hfull : 420 ≤ s.received.toNat / 78 := by
    by_contra hshort
    rw [if_neg hshort] at henabled
    cases henabled
  have hreceived : 420 * 78 ≤ s.received.toNat := (Nat.le_div_iff_mul_le (by decide)).mp hfull
  omega

/-- A step that leaves the transfer alone: a flag may go up, nothing else changes. -/
structure Kept (s t : StoreSystem) : Prop where
  ring : t.ring = s.ring
  received : t.received = s.received
  count : t.dev.uniqueData.canFrameCountPerRequest = s.dev.uniqueData.canFrameCountPerRequest
  rxOngoing : t.dev.rxOngoing = s.dev.rxOngoing
  onopening : t.dev.onopening = s.dev.onopening
  onclosing : s.dev.onclosing = true → t.dev.onclosing = true
  isComplete : s.isComplete = true → t.isComplete = true
  pc : t.pc = s.pc
  started : t.started = s.started
  quota : t.quota = s.quota
  store : t.store = s.store
  delivered : t.delivered = s.delivered
  rejected : t.rejected = s.rejected
  results : t.results = s.results

theorem kept_disconnect (s : StoreSystem) :
    Kept s { s with dev := { s.dev with onclosing := true } } :=
  ⟨rfl, rfl, rfl, rfl, rfl, fun _ => rfl, id, rfl, rfl, rfl, rfl, rfl, rfl, rfl⟩

theorem kept_storeEnd (hongoing : s.dev.rxOngoing = true) (data : List UInt8) :
    Kept s (s.dispatch data completeMsg) := by
  have hdispatch := dispatchMsg_complete hongoing data
  constructor <;> simp only [dispatch, StoreSystem.ring, StoreSystem.received,
    StoreSystem.isComplete, hdispatch, imp_self, implies_true]

theorem kept_other (hongoing : s.dev.rxOngoing = true) (data : List UInt8) {msg : Msg}
    (hframe : msg.id ≠ cmdNotifyStoreDataRecvCanFrame)
    (hcomplete : msg.id ≠ cmdNotifyStoreDataRecvCanFrameComplete) :
    Kept s (s.dispatch data msg) := by
  obtain ⟨hunique, hopening, hclosing, hrx⟩ := dispatchMsg_other hongoing data hframe hcomplete
  constructor <;> simp only [dispatch, StoreSystem.ring, StoreSystem.received,
    StoreSystem.isComplete, hunique, hopening, hclosing, hrx, imp_self]

theorem Kept.begun {t : StoreSystem} (hkept : Kept s t) : Begun t ↔ Begun s := by
  rw [Begun, Begun, hkept.started, hkept.pc]

theorem Kept.balance {t : StoreSystem} (hkept : Kept s t) (h : Balance s) : Balance t := by
  obtain ⟨hused, hbatch⟩ := h
  rw [← hkept.ring, ← hkept.received] at hused
  rw [← hkept.received, ← hkept.quota] at hbatch
  exact ⟨hused, hbatch⟩

theorem Kept.phase {t : StoreSystem} (hkept : Kept s t) (h : Phase s) : Phase t := by
  have hclosing := hkept.onclosing
  have hcomplete := hkept.isComplete
  unfold Phase at h ⊢
  rw [hkept.pc]
  cases hpc : s.pc <;> simp only [hpc, hkept.ring, hkept.received, hkept.started, hkept.quota] at h ⊢
  case ringRead => exact ⟨h.1, h.2.imp hclosing (Or.imp_left hcomplete)⟩
  case checkComplete => exact h.imp_left hcomplete
  all_goals exact h

theorem Flow.kept {t : StoreSystem} (h : Flow s) (hkept : Kept s t) : Flow t where
  ready :=
    { wf := show t.ring.Wf from hkept.ring ▸ h.ready.wf
      bufferSize := show t.ring.bufferSize = _ from hkept.ring ▸ h.ready.bufferSize
      room := show t.ring.endPtr + 2 ^ 31 ≤ 2 ^ 64 from hkept.ring ▸ h.ready.room
      count := hkept.count.trans h.ready.count
      ongoing := hkept.rxOngoing.trans h.ready.ongoing }
  rejected := hkept.rejected.trans h.rejected
  unstarted hnot := by
    obtain ⟨hquota, hdelivered, hout, hpc⟩ := h.unstarted (hkept.started ▸ hnot)
    exact ⟨hkept.quota.trans hquota, hkept.delivered.trans hdelivered, hkept.results ▸ hout,
      hkept.pc ▸ hpc⟩
  balance hbegun := hkept.balance (h.balance (hkept.begun.mp hbegun))
  phase := hkept.phase h.phase

theorem Flow.start (h : Flow s) (hstarted : s.started = false) :
    Flow (s.clear.setPc .startSend) where
  ready :=
    { wf := wf_ringbufferClear h.ready.wf
      bufferSize := h.ready.bufferSize
      room := h.ready.room
      count := h.ready.count
      ongoing := h.ready.ongoing }
  rejected := h.rejected
  unstarted hnot :=
    have hun := h.unstarted hstarted
    ⟨hun.quota, hun.delivered, hun.out, .inr (.inl rfl)⟩
  balance _ := by
    refine ⟨?_, .inr ⟨rfl, (h.unstarted hstarted).quota⟩⟩
    change ((ringbufferClear s.ring).queue.length : ℤ) ≤ 0
    rw [queue_ringbufferClear]
    exact le_rfl
  phase := ⟨rfl, hstarted⟩

/-- A batch is asked for when nothing is received and the batch before it is used up. -/
theorem Flow.send (h : Flow s) (hpc : s.pc ≠ .idle) (hreceived : s.received = 0)
    (hquota : s.quota = 0) (taken : Bool) {pc : IoctlPc}
    (hunstarted : s.started = false → taken = false → pc = .startAck false)
    (hphase : Phase ((s.take taken).setPc pc)) : Flow ((s.take taken).setPc pc) := by
  obtain ⟨hused, hbatch⟩ := h.balance (.inr hpc)
  cases taken with
  | false =>
      exact
        { ready := h.ready
          rejected := h.rejected
          unstarted := fun hnot =>
            have hun := h.unstarted hnot
            ⟨hun.quota, hun.delivered, hun.out, .inr (.inr (hunstarted hnot rfl))⟩
          balance := fun _ => ⟨hused, hbatch⟩
          phase := hphase }
  | true =>
      exact
        { ready := h.ready
          rejected := h.rejected
          unstarted := fun hnot => nomatch hnot
          balance := fun _ => by
            refine ⟨hused, .inl ?_⟩
            change s.received + 78 * ((s.quota + s.dev.uniqueData.canFrameCountPerRequest : ℕ) : ℤ) =
              _
            rw [hreceived, hquota, h.ready.count]
            simp
          phase := hphase }

theorem Flow.frame (h : Flow s) (hquota : 0 < s.quota) (f : StoreFrame)
    (store : List StoreFrame) : Flow (s.deliver f store) := by
  have hspec := h.deliver hquota f store
  have hstarted := h.started_of_quota hquota
  have hbal := h.balance (.inl hstarted)
  have hphase := h.phase
  refine ⟨⟨hspec.wf, hspec.bufferSize.trans h.ready.bufferSize, ?_,
    hspec.count.trans h.ready.count, hspec.rxOngoing.trans h.ready.ongoing⟩,
    hspec.rejected.trans h.rejected, fun hnot => ?_, fun _ => ⟨?_, ?_⟩, ?_⟩
  · exact hspec.endPtr ▸ h.ready.room
  · cases hstarted.symm.trans (hspec.started.symm.trans hnot)
  · rw [hspec.queue, hspec.received, List.length_append, f.property, Nat.cast_add]
    exact Int.add_le_add_right hbal.used_le 78
  · rw [hspec.received, hspec.quota]
    have hbatch := hbal.batch
    omega
  · unfold Phase at hphase ⊢
    rw [hspec.pc]
    cases hpc : s.pc <;> simp only [hpc, hspec.isComplete, hspec.onclosing] at hphase ⊢
    case startSend => cases hstarted.symm.trans hphase.2
    case wait => exact hphase
    case ringRead =>
      exact ⟨hphase.1, hphase.2.imp_right (Or.imp_right fun hzero => absurd hzero (by omega))⟩
    case checkComplete => exact hphase.imp_right fun hzero => absurd hzero (by omega)
    all_goals omega

theorem Flow.ringRead (h : Flow s) (hcopy : ∀ dst n, copyToUser dst n = true → n < 2 ^ 31)
    {buffer count : ℕ} (hpc : s.pc = .ringRead buffer count) (copied : Bool) :
    Flow (s.readRing copyToUser buffer count copied) := by
  have hstarted : s.started = true := h.started_of_pc (by simp [hpc]) (by simp [hpc]) (by simp [hpc])
  have hphase := h.phase
  simp only [Phase, hpc] at hphase
  rcases h.readRing_cases hcopy buffer hphase.1 copied with
    ⟨ret, _, hread⟩ | ⟨hclosing, r, hspec, hread⟩
  · rw [hread]
    exact h.ret ret fun _ => rfl
  · have hring : Flow (s.setRing r.ring) := by
      refine h.setRing hstarted hspec.removed ?_
      simp only [Phase, StoreSystem.setRing, setUniqueData, hpc]
      exact hphase
    rw [hread]
    cases copied with
    | false => exact hring.ret _ fun hnot => nomatch hstarted.symm.trans hnot
    | true =>
        refine hring.setPc hstarted ?_
        exact hphase.2.resolve_left fun hclosing' => nomatch hclosing.symm.trans hclosing'

theorem Flow.step (hcopy : ∀ dst n, copyToUser dst n = true → n < 2 ^ 31) {l : StoreLabel}
    {t : StoreSystem} (h : Flow s) (hstep : s.step copyToUser l = some t) : Flow t := by
  have hphase := h.phase
  cases step_of_eq_some hstep with
  | start hpc hstarted => exact h.start hstarted
  | refused _ _ _ => exact h.ret _ fun _ => rfl
  | read _ hstarted hcount => exact h.setPc hstarted hcount
  | enabled hpc henabled =>
      have hstarted : s.started = true :=
        h.started_of_pc (by simp [hpc]) (by simp [hpc]) (by simp [hpc])
      simp only [Phase, hpc] at hphase
      exact h.setPc hstarted ⟨hphase, h.quota_eq_zero_of_enabled hstarted henabled⟩
  | waited hpc _ => exact h.ret _ fun _ => rfl
  | ringRead hpc => exact h.ringRead hcopy hpc _
  | complete hpc _ =>
      have hstarted : s.started = true :=
        h.started_of_pc (by simp [hpc]) (by simp [hpc]) (by simp [hpc])
      exact h.ret _ fun hnot => nomatch hstarted.symm.trans hnot
  | incomplete hpc hflag =>
      have hstarted : s.started = true :=
        h.started_of_pc (by simp [hpc]) (by simp [hpc]) (by simp [hpc])
      simp only [Phase, hpc] at hphase
      exact h.setPc hstarted (hphase.resolve_left fun hset => nomatch hflag.symm.trans hset)
  | remaining hpc _ =>
      have hstarted : s.started = true :=
        h.started_of_pc (by simp [hpc]) (by simp [hpc]) (by simp [hpc])
      exact h.ret _ fun hnot => nomatch hstarted.symm.trans hnot
  | drained hpc hempty =>
      have hstarted : s.started = true :=
        h.started_of_pc (by simp [hpc]) (by simp [hpc]) (by simp [hpc])
      simp only [Phase, hpc] at hphase
      exact h.setPc hstarted ⟨hphase, (ringbufferIsEmpty_iff h.ready.wf).mp hempty⟩
  | reset hpc =>
      have hstarted : s.started = true :=
        h.started_of_pc (by simp [hpc]) (by simp [hpc]) (by simp [hpc])
      simp only [Phase, hpc] at hphase
      exact
        { ready := ⟨h.ready.wf, h.ready.bufferSize, h.ready.room, h.ready.count, h.ready.ongoing⟩
          rejected := h.rejected
          unstarted := fun hnot => nomatch hstarted.symm.trans hnot
          balance := fun _ => ⟨by
            change (s.ring.queue.length : ℤ) ≤ 0
            rw [hphase.2]
            exact le_rfl, .inr ⟨rfl, hphase.1⟩⟩
          phase := ⟨hphase.1, hphase.2, rfl⟩ }
  | sendStart hpc =>
      simp only [Phase, hpc] at hphase
      refine h.send (by simp [hpc]) hphase.1 (h.unstarted hphase.2).quota _ ?_ trivial
      intro _ htaken
      rw [htaken]
  | sendRequest hpc =>
      have hstarted : s.started = true :=
        h.started_of_pc (by simp [hpc]) (by simp [hpc]) (by simp [hpc])
      simp only [Phase, hpc] at hphase
      exact h.send (by simp [hpc]) hphase.2.2 hphase.1 _
        (fun hnot => nomatch hstarted.symm.trans hnot) trivial
  | ackStart hpc _ => exact h.ret _ fun _ => rfl
  | ackRequest hpc _ =>
      have hstarted : s.started = true :=
        h.started_of_pc (by simp [hpc]) (by simp [hpc]) (by simp [hpc])
      exact h.ret _ fun hnot => nomatch hstarted.symm.trans hnot
  | frame _ hquota => exact h.frame hquota _ _
  | storeEnd _ _ => exact h.kept (kept_storeEnd h.ready.ongoing _)
  | other hframe hcomplete => exact h.kept (kept_other h.ready.ongoing _ hframe hcomplete)
  | disconnect => exact h.kept (kept_disconnect s)

theorem flow_init {dev : Dev UniqueData} (hready : StoreReady dev) (store : List StoreFrame) :
    Flow (init dev store) where
  ready := hready
  rejected := rfl
  unstarted _ := ⟨rfl, rfl, (fun _ hr => nomatch hr), .inl rfl⟩
  balance hbegun := nomatch hbegun.resolve_right fun hpc => hpc rfl
  phase := trivial

end StoreSystem

end Ep1Cf02a

end AptUsbtrx
