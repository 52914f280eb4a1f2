import AptUsbtrx.Verification.StoreData.Flow

/-! # When a store-data transfer goes on

`READ_STORE_DATA` asks for the next batch when the ring is drained, and it gets there only
when the received size says that the last batch is complete. -/

namespace AptUsbtrx

open Memory Execution

namespace Ep1Cf02a

/-- The steps of a `READ_STORE_DATA` between its call and its receive request, with copies
that succeed. -/
def StoreLabel.OfRead : StoreLabel → Prop
  | .wake _ | .ringRead true | .tau => True
  | _ => False

namespace StoreSystem

variable {copyToUser : ℕ → ℕ → Bool} {s t : StoreSystem}

/-- A transfer that nothing but a receive request brings on. -/
structure Pending (s : StoreSystem) : Prop where
  pc : s.pc = .idle
  started : s.started = true
  incomplete : s.isComplete = false
  drained : s.ring.queue = []
  quota : s.quota = 0

/-- A `READ_STORE_DATA` gets to its receive request and cannot return before. -/
structure Rerequests (copyToUser : ℕ → ℕ → Bool) (s : StoreSystem) (buffer count : ℕ) : Prop where
  requests : ∃ ls t, (∀ l ∈ ls, l.OfRead) ∧
    exec (step copyToUser) s (.readStoreData buffer count true :: ls) = some t ∧
    ∃ rsize out, t.pc = .request rsize out
  not_returned : ∀ ls t, (∀ l ∈ ls, l.OfRead) →
    exec (step copyToUser) s (.readStoreData buffer count true :: ls) = some t →
    t.results = s.results

/-- The device stays, and it takes every receive request that is sent. -/
def Taken (s : StoreSystem) (l : StoreLabel) : Prop :=
  l ≠ .disconnect ∧ ∀ rsize out, s.pc = .request rsize out → l ≠ .send false

/-- The device is there, and once it has taken a start the received size and the rest of the
batch are a whole batch, but for the moment between the reset and the receive request. -/
structure Live (s : StoreSystem) : Prop where
  onopening : s.dev.onopening = false
  onclosing : s.dev.onclosing = false
  batch : s.started = true → (∀ rsize out, s.pc ≠ .request rsize out) →
    s.received + 78 * s.quota = 78 * framesPerRequest

/-- Steps that leave the batch alone. -/
theorem Live.same (h : Live s) (hopening : t.dev.onopening = s.dev.onopening)
    (hclosing : t.dev.onclosing = s.dev.onclosing) (hstarted : t.started = s.started)
    (hreceived : t.received = s.received) (hquota : t.quota = s.quota)
    (hpc : (∀ rsize out, t.pc ≠ .request rsize out) → ∀ rsize out, s.pc ≠ .request rsize out) :
    Live t where
  onopening := hopening.trans h.onopening
  onclosing := hclosing.trans h.onclosing
  batch hbegun hnot := by
    rw [hreceived, hquota]
    exact h.batch (hstarted ▸ hbegun) (hpc hnot)

/-- The device takes a whole batch when nothing is received and nothing is left to send. -/
theorem live_take (hopening : s.dev.onopening = false) (hclosing : s.dev.onclosing = false)
    (hready : StoreReady s.dev) (hreceived : s.received = 0) (hquota : s.quota = 0)
    (pc : IoctlPc) : Live ((s.take true).setPc pc) where
  onopening := hopening
  onclosing := hclosing
  batch _ _ := by
    change s.received + 78 * ((s.quota + s.dev.uniqueData.canFrameCountPerRequest : ℕ) : ℤ) = _
    rw [hreceived, hquota, hready.count]
    simp

theorem live_unstarted (hopening : s.dev.onopening = false) (hclosing : s.dev.onclosing = false)
    (hstarted : s.started = false) : Live s where
  onopening := hopening
  onclosing := hclosing
  batch hbegun := nomatch hstarted.symm.trans hbegun

theorem Live.frame (h : Live s) (hflow : Flow s) (hquota : 0 < s.quota) (f : StoreFrame)
    (store : List StoreFrame) : Live (s.deliver f store) where
  onopening := (hflow.deliver hquota f store).onopening.trans h.onopening
  onclosing := (hflow.deliver hquota f store).onclosing.trans h.onclosing
  batch _ hnot := by
    have hspec := hflow.deliver hquota f store
    have hbatch := h.batch (hflow.started_of_quota hquota) (hspec.pc ▸ hnot)
    rw [hspec.received, hspec.quota]
    omega

theorem Live.ringRead (h : Live s) (hflow : Flow s)
    (hcopy : ∀ dst n, copyToUser dst n = true → n < 2 ^ 31) {buffer count : ℕ}
    (hpc : s.pc = .ringRead buffer count) (copied : Bool) :
    Live (s.readRing copyToUser buffer count copied) := by
  have hphase := hflow.phase
  simp only [Phase, hpc] at hphase
  rcases hflow.readRing_cases hcopy buffer hphase.1 copied with ⟨_, _, hread⟩ | ⟨_, r, _, hread⟩
  · rw [hread]
    exact h.same rfl rfl rfl rfl rfl fun _ => by simp [hpc]
  · rw [hread]
    cases copied <;> exact h.same rfl rfl rfl rfl rfl fun _ => by simp [hpc]

theorem Live.step (hcopy : ∀ dst n, copyToUser dst n = true → n < 2 ^ 31) (hflow : Flow s)
    (h : Live s) {l : StoreLabel} (htaken : Taken s l) (hstep : s.step copyToUser l = some t) :
    Live t := by
  have hphase := hflow.phase
  cases step_of_eq_some hstep with
  | start _ hstarted => exact live_unstarted h.onopening h.onclosing hstarted
  | @refused _ _ _ ret hpc _ _ => exact h.same rfl rfl rfl rfl rfl fun _ => by simp [hpc]
  | read hpc _ _ => exact h.same rfl rfl rfl rfl rfl fun _ => by simp [hpc]
  | enabled hpc _ => exact h.same rfl rfl rfl rfl rfl fun _ => by simp [hpc]
  | waited hpc _ => exact h.same rfl rfl rfl rfl rfl fun _ => by simp [hpc]
  | ringRead hpc => exact h.ringRead hflow hcopy hpc _
  | complete hpc _ => exact h.same rfl rfl rfl rfl rfl fun _ => by simp [hpc]
  | incomplete hpc _ => exact h.same rfl rfl rfl rfl rfl fun _ => by simp [hpc]
  | remaining hpc _ => exact h.same rfl rfl rfl rfl rfl fun _ => by simp [hpc]
  | drained hpc _ => exact h.same rfl rfl rfl rfl rfl fun _ => by simp [hpc]
  | @reset rsize out hpc => exact ⟨h.onopening, h.onclosing, fun _ hnot => absurd rfl (hnot rsize out)⟩
  | @sendStart taken hpc =>
      simp only [Phase, hpc] at hphase
      cases taken with
      | false => exact live_unstarted h.onopening h.onclosing hphase.2
      | true =>
          exact live_take h.onopening h.onclosing hflow.ready hphase.1
            (hflow.unstarted hphase.2).quota _
  | @sendRequest taken rsize out hpc =>
      simp only [Phase, hpc] at hphase
      cases taken with
      | false => exact absurd rfl (htaken.2 rsize out hpc)
      | true => exact live_take h.onopening h.onclosing hflow.ready hphase.2.2 hphase.1 _
  | ackStart hpc _ => exact h.same rfl rfl rfl rfl rfl fun _ => by simp [hpc]
  | ackRequest hpc _ => exact h.same rfl rfl rfl rfl rfl fun _ => by simp [hpc]
  | frame _ hquota => exact h.frame hflow hquota _ _
  | storeEnd _ _ =>
      have hkept := kept_storeEnd hflow.ready.ongoing (frameBytes completeMsg)
      have hclosing : (s.dispatch (frameBytes completeMsg) completeMsg).dev.onclosing =
          s.dev.onclosing := by
        rw [dispatch, dispatchMsg_complete hflow.ready.ongoing]
      exact h.same hkept.onopening hclosing hkept.started hkept.received hkept.quota id
  | @other data msg hframe hcomplete =>
      have hkept := kept_other hflow.ready.ongoing data hframe hcomplete
      exact h.same hkept.onopening
        (dispatchMsg_other hflow.ready.ongoing data hframe hcomplete).onclosing
        hkept.started hkept.received hkept.quota id
  | disconnect => exact absurd rfl htaken.1

/-! ### A batch -/

/-- What the arrival of `fs` does to the state. -/
structure FramesSpec (s : StoreSystem) (fs rest : List StoreFrame) (t : StoreSystem) : Prop where
  flow : Flow t
  received : t.received = s.received + 78 * fs.length
  quota : t.quota + fs.length = s.quota
  store : t.store = rest
  started : t.started = s.started
  pc : t.pc = s.pc
  results : t.results = s.results
  isComplete : t.isComplete = s.isComplete
  onopening : t.dev.onopening = s.dev.onopening
  onclosing : t.dev.onclosing = s.dev.onclosing

theorem Flow.exec_frames (h : Flow s) {fs rest : List StoreFrame} (hstore : s.store = fs ++ rest)
    (hquota : fs.length ≤ s.quota) :
    ∃ t, exec (StoreSystem.step copyToUser) s (List.replicate fs.length .frame) = some t ∧
      FramesSpec s fs rest t := by
  induction fs generalizing s with
  | nil => exact ⟨s, rfl, h, by simp, rfl, hstore, rfl, rfl, rfl, rfl, rfl, rfl⟩
  | cons f fs ih =>
      have hpos : 0 < s.quota := by
        rw [List.length_cons] at hquota
        omega
      have hspec := h.deliver hpos f (fs ++ rest)
      have hstep : s.step copyToUser .frame = some (s.deliver f (fs ++ rest)) := by
        simp only [StoreSystem.step, hstore, List.cons_append, if_pos hpos]
        rfl
      rw [List.length_cons] at hquota
      have hle : fs.length ≤ (s.deliver f (fs ++ rest)).quota := by
        rw [hspec.quota]
        omega
      obtain ⟨t, hexec, ht⟩ := ih (h.frame hpos f (fs ++ rest)) hspec.store hle
      refine ⟨t, ?_, ht.flow, ?_, ?_, ht.store, ht.started.trans hspec.started,
        ht.pc.trans hspec.pc, ht.results.trans hspec.results, ht.isComplete.trans hspec.isComplete,
        ht.onopening.trans hspec.onopening, ht.onclosing.trans hspec.onclosing⟩
      · rw [List.length_cons, List.replicate_succ, exec_cons, hstep, Option.bind_some, hexec]
      · rw [ht.received, hspec.received, List.length_cons]
        push_cast
        omega
      · have := ht.quota
        rw [hspec.quota] at this
        rw [List.length_cons]
        omega

/-- A start and the batch for it. -/
def firstBatch : List StoreLabel :=
  [.start, .send true, .ack .success true] ++ List.replicate framesPerRequest .frame

/-- The whole first batch has arrived, nothing is read yet. -/
structure BatchArrived (s : StoreSystem) : Prop where
  flow : Flow s
  pc : s.pc = .idle
  started : s.started = true
  incomplete : s.isComplete = false
  quota : s.quota = 0
  received : s.received = 78 * framesPerRequest
  onopening : s.dev.onopening = false
  onclosing : s.dev.onclosing = false

theorem exec_firstBatch (copyToUser : ℕ → ℕ → Bool) {dev : Dev UniqueData}
    (hready : StoreReady dev) (hopening : dev.onopening = false) (hclosing : dev.onclosing = false)
    (fs : List StoreFrame) (hlen : fs.length = framesPerRequest) (rest : List StoreFrame) :
    ∃ s, exec (step copyToUser) (init dev (fs ++ rest)) firstBatch = some s ∧
      BatchArrived s ∧ s.store = rest := by
  obtain ⟨t, ht⟩ : ∃ t, t =
    ((((init dev (fs ++ rest)).clear.setPc .startSend).take true).setPc (.startAck true)).ret 0 [] :=
    ⟨_, rfl⟩
  have hstart : exec (step copyToUser) (init dev (fs ++ rest)) [.start, .send true, .ack .success true]
      = some t := ht ▸ rfl
  have hquota : t.quota = framesPerRequest := by
    rw [ht, ← hready.count]
    exact Nat.zero_add _
  have hflow : Flow t := by
    have hcleared : Flow ((init dev (fs ++ rest)).clear.setPc .startSend) :=
      (flow_init hready _).start rfl
    have htaken : Flow ((((init dev (fs ++ rest)).clear.setPc .startSend).take true).setPc
        (.startAck true)) := hcleared.send nofun rfl rfl true nofun trivial
    rw [ht]
    exact htaken.ret 0 fun _ => rfl
  obtain ⟨s, hexec, hspec⟩ : ∃ s, exec (step copyToUser) t (List.replicate fs.length .frame) = some s ∧
      FramesSpec t fs rest s := hflow.exec_frames (by rw [ht]; rfl) (by rw [hquota, hlen])
  refine ⟨s, ?_, ⟨hspec.flow, hspec.pc.trans ?_, hspec.started.trans ?_, hspec.isComplete.trans ?_,
    ?_, hspec.received.trans ?_, hspec.onopening.trans ?_, hspec.onclosing.trans ?_⟩, hspec.store⟩
  · rw [firstBatch, exec_append, hstart, Option.bind_some, ← hlen, hexec]
  · rw [ht]
    rfl
  · rw [ht]
    rfl
  · rw [ht]
    rfl
  · have := hspec.quota
    omega
  · rw [hlen, ht]
    exact Int.zero_add _
  · rw [ht]
    exact hopening
  · rw [ht]
    exact hclosing

/-- A read of the whole batch that has arrived. -/
theorem BatchArrived.read_spec (h : BatchArrived s) {buffer : ℕ} (hbuffer : buffer ≠ 0)
    (hcopy : ∀ dst, ∀ n ≤ storeDataBufferSize, copyToUser dst n = true) :
    ∃ r, ringbufferRead copyToUser s.ring buffer storeDataBufferSize = r ∧
      ReadSpec s.ring storeDataBufferSize r ∧ s.ring.queue.length ≤ storeDataBufferSize := by
  have hroom : s.ring.endPtr + 2 ^ 31 ≤ 2 ^ 64 := h.flow.ready.room
  have hend : s.ring.endPtr + storeDataBufferSize < 2 ^ 64 := by
    rw [storeDataBufferSize]
    omega
  refine ⟨_, rfl, ringbufferReadWith_spec h.flow.ready.wf hbuffer hend hcopy, ?_⟩
  · have hused := (h.flow.balance (.inl h.started)).used_le
    rw [h.received, show framesPerRequest = 420 by decide] at hused
    rw [storeDataBufferSize]
    omega

/-! ### The next read -/

theorem rxStoreDataIsReadEnable_of_received (hcount : StoreReady s.dev)
    (hreceived : s.received = 78 * framesPerRequest) : rxStoreDataIsReadEnable s.dev = true := by
  have hsize : s.dev.uniqueData.receivedStoreDataSize = 78 * 420 := hreceived
  by_cases hclosing : s.dev.onclosing = true
  · rw [rxStoreDataIsReadEnable, if_pos hclosing]
  · rw [rxStoreDataIsReadEnable, if_neg hclosing]
    dsimp only
    rw [hcount.count, hsize, if_pos (by decide)]

theorem ringbufferRead_of_drained {ring : Ringbuffer} (hw : ring.Wf) (hdrained : ring.queue = [])
    {buffer : ℕ} (hbuffer : buffer ≠ 0) (count : ℕ) :
    ringbufferRead copyToUser ring buffer count = ⟨0, ring, []⟩ := by
  have hptr : ring.readPtr = ring.writePtr := (Ringbuffer.queue_eq_nil_iff hw).mp hdrained
  rw [ringbufferRead, ringbufferReadWith, if_neg hbuffer]
  by_cases hcount : count = 0
  · rw [if_pos hcount]
  · rw [if_neg hcount]
    dsimp only
    rw [if_neg (by omega), if_neg (by omega)]

theorem readSpec_of_drained {ring : Ringbuffer} (hw : ring.Wf) (hdrained : ring.queue = [])
    (count : ℕ) : ReadSpec ring count ⟨0, ring, []⟩ :=
  .of_min (n := 0) (by simp [hdrained]) rfl rfl (removed_zero hw)

/-- The `READ_STORE_DATA` that has taken `r` out of the ring sends its receive request. -/
def requesting (s : StoreSystem) (r : ReadResult) : StoreSystem :=
  ((s.setRing r.ring).setUniqueData { (s.setRing r.ring).dev.uniqueData with
    receivedStoreDataSize := 0 }).setPc (.request r.ret r.out)

/-- The steps to the receive request. -/
def toRequest : List StoreLabel := [.wake .enabled, .ringRead true, .tau, .tau, .tau]

theorem ofRead_toRequest : ∀ l ∈ toRequest, l.OfRead := by
  simp [toRequest, StoreLabel.OfRead]

theorem readRing_of_spec (hclosing : s.dev.onclosing = false) {buffer count : ℕ} {r : ReadResult}
    (hspec : ReadSpec s.ring count r) (hread : ringbufferRead copyToUser s.ring buffer count = r)
    (copied : Bool) : s.readRing copyToUser buffer count copied =
      if copied then (s.setRing r.ring).setPc (.checkComplete r.ret r.out)
      else (s.setRing r.ring).ret (-efault) r.out := by
  have hret : ¬ r.ret < 0 := by
    rw [hspec.ret]
    omega
  rw [readRing, if_neg (show ¬ s.dev.onclosing = true by simp [hclosing])]
  dsimp only
  rw [show ringbufferRead copyToUser s.dev.uniqueData.rxStoreData buffer count = r from hread,
    if_neg hret]
  rfl

theorem exec_ringRead (hpc : s.pc = .idle) (hstarted : s.started = true)
    (hopening : s.dev.onopening = false) (hclosing : s.dev.onclosing = false)
    (henabled : rxStoreDataIsReadEnable s.dev = true) {buffer count : ℕ} (hcount : count < 2 ^ 64)
    {r : ReadResult} (hspec : ReadSpec s.ring count r)
    (hread : ringbufferRead copyToUser s.ring buffer count = r) (copied : Bool) :
    exec (step copyToUser) s
        [.readStoreData buffer count true, .wake .enabled, .ringRead copied] =
      some (if copied then (s.setRing r.ring).setPc (.checkComplete r.ret r.out)
        else (s.setRing r.ring).ret (-efault) r.out) := by
  have hcall : s.step copyToUser (.readStoreData buffer count true) =
      some (s.setPc (.wait buffer count)) := by
    simp only [step, hpc, hstarted, hcount, hopening, hclosing]
    simp
  have hwake : (s.setPc (.wait buffer count)).step copyToUser (.wake .enabled) =
      some (s.setPc (.ringRead buffer count)) := if_pos (iff_of_true rfl henabled)
  have hring : (s.setPc (.ringRead buffer count)).step copyToUser (.ringRead copied) =
      some (if copied then (s.setRing r.ring).setPc (.checkComplete r.ret r.out)
        else (s.setRing r.ring).ret (-efault) r.out) :=
    congrArg some
      (readRing_of_spec (s := s.setPc (.ringRead buffer count)) hclosing hspec hread copied)
  rw [exec_cons, hcall, Option.bind_some, exec_cons, hwake, Option.bind_some, exec_cons, hring,
    Option.bind_some, exec_nil]

theorem exec_readStoreData (hpc : s.pc = .idle) (hstarted : s.started = true)
    (hopening : s.dev.onopening = false) (hclosing : s.dev.onclosing = false)
    (hcomplete : s.isComplete = false) (henabled : rxStoreDataIsReadEnable s.dev = true)
    {buffer count : ℕ} (hcount : count < 2 ^ 64) {r : ReadResult} (hspec : ReadSpec s.ring count r)
    (hread : ringbufferRead copyToUser s.ring buffer count = r)
    (hdrain : s.ring.queue.length ≤ count) :
    exec (step copyToUser) s (.readStoreData buffer count true :: toRequest) =
      some (s.requesting r) := by
  have hring := exec_ringRead hpc hstarted hopening hclosing henabled hcount hspec hread true
  have hflag : ((s.setRing r.ring).setPc (.checkComplete r.ret r.out)).step copyToUser .tau =
      some ((s.setRing r.ring).setPc (.checkEmpty r.ret r.out)) := if_pos hcomplete
  have hempty : ((s.setRing r.ring).setPc (.checkEmpty r.ret r.out)).step copyToUser .tau =
      some ((s.setRing r.ring).setPc (.reset r.ret r.out)) := by
    refine if_pos ((ringbufferIsEmpty_iff hspec.removed.wf).mpr ?_)
    rw [hspec.removed.queue, List.drop_eq_nil_iff]
    exact hdrain
  have hreset : ((s.setRing r.ring).setPc (.reset r.ret r.out)).step copyToUser .tau =
      some (s.requesting r) := rfl
  rw [show StoreLabel.readStoreData buffer count true :: toRequest =
      [.readStoreData buffer count true, .wake .enabled, .ringRead true] ++ [.tau, .tau, .tau]
    from rfl, exec_append, hring, Option.bind_some, if_pos rfl, exec_cons, hflag, Option.bind_some,
    exec_cons, hempty, Option.bind_some, exec_cons, hreset, Option.bind_some, exec_nil]

/-- Where a `READ_STORE_DATA` on a pending transfer may stand. -/
structure Underway (s₀ s : StoreSystem) : Prop where
  results : s.results = s₀.results
  onclosing : s.dev.onclosing = false
  incomplete : s.isComplete = false
  wf : s.ring.Wf
  drained : s.ring.queue = []
  pc : match s.pc with
    | .wait buffer _ => buffer ≠ 0 ∧ rxStoreDataIsReadEnable s.dev = true
    | .ringRead buffer _ => buffer ≠ 0
    | .checkComplete _ _ | .checkEmpty _ _ | .reset _ _ | .request _ _ => True
    | .idle | .startSend | .startAck _ | .requestAck _ _ _ => False

theorem Underway.step {s₀ : StoreSystem} (h : Underway s₀ s) {l : StoreLabel} (hl : l.OfRead)
    (hstep : s.step copyToUser l = some t) : Underway s₀ t := by
  obtain ⟨hresults, hclosing, hincomplete, hwf, hdrained, hat⟩ := h
  cases step_of_eq_some hstep with
  | enabled hpc henabled =>
      rw [hpc] at hat
      exact ⟨hresults, hclosing, hincomplete, hwf, hdrained, hat.1⟩
  | waited hpc hnot =>
      rw [hpc] at hat
      exact absurd hat.2 hnot
  | @ringRead buffer count copied hpc =>
      rw [hpc] at hat
      cases copied with
      | false => exact absurd hl id
      | true =>
          rw [readRing_of_spec hclosing (readSpec_of_drained hwf hdrained count)
            (ringbufferRead_of_drained hwf hdrained hat count) true]
          exact ⟨hresults, hclosing, hincomplete, hwf, hdrained, trivial⟩
  | complete _ hflag => exact nomatch hincomplete.symm.trans hflag
  | incomplete _ _ | drained _ _ => exact ⟨hresults, hclosing, hincomplete, hwf, hdrained, trivial⟩
  | remaining _ hne => exact absurd ((ringbufferIsEmpty_iff hwf).mpr hdrained) hne
  | reset _ => exact ⟨hresults, hclosing, hincomplete, hwf, hdrained, trivial⟩
  | _ => exact absurd hl id

/-- On a pending transfer with a whole batch received the next read asks for more. -/
theorem Pending.rerequests (hpending : Pending s) (hflow : Flow s)
    (hopening : s.dev.onopening = false) (hclosing : s.dev.onclosing = false)
    (henabled : rxStoreDataIsReadEnable s.dev = true) {buffer count : ℕ} (hbuffer : buffer ≠ 0)
    (hcount : count < 2 ^ 64) : Rerequests copyToUser s buffer count where
  requests := by
    have hwf := hflow.ready.wf
    refine ⟨toRequest, _, ofRead_toRequest, exec_readStoreData hpending.pc hpending.started hopening
      hclosing hpending.incomplete henabled hcount
      (readSpec_of_drained hwf hpending.drained count)
      (ringbufferRead_of_drained hwf hpending.drained hbuffer count) ?_, 0, [], rfl⟩
    simp [hpending.drained]
  not_returned ls t hls hexec := by
    obtain ⟨u, hcall, hrest⟩ := Option.bind_eq_some_iff.mp hexec
    have hu : Underway s u := by
      simp only [step, hpending.pc, hpending.started, hcount, hopening, hclosing] at hcall
      simp only [and_self, if_true, Bool.true_eq_false, Bool.false_eq_true, if_false,
        Option.some.injEq] at hcall
      subst hcall
      exact ⟨rfl, hclosing, hpending.incomplete, hflow.ready.wf, hpending.drained,
        hbuffer, henabled⟩
    have hall : AllSteps (step copyToUser) (fun _ l => l.OfRead) u ls :=
      allSteps_of_forall_mem (fun l hl _ => hls l hl) u
    exact (exec_invariant_of_allSteps (I := Underway s)
      (fun _ _ _ h hl hstep => h.step hl hstep) hu hall hrest).results

/-- While the device takes every receive request, a pending transfer never gets stuck. -/
theorem download_not_stuck (hcopy : ∀ dst n, copyToUser dst n = true → n < 2 ^ 31)
    {dev : Dev UniqueData} (hready : StoreReady dev) (hopening : dev.onopening = false)
    (hclosing : dev.onclosing = false) {store : List StoreFrame} {ls : List StoreLabel}
    (htaken : AllSteps (step copyToUser) Taken (init dev store) ls)
    (h : exec (step copyToUser) (init dev store) ls = some s) (hpending : Pending s)
    {buffer count : ℕ} (hbuffer : buffer ≠ 0) (hcount : count < 2 ^ 64) :
    Rerequests copyToUser s buffer count := by
  obtain ⟨hflow, hlive⟩ := exec_invariant_of_allSteps (I := fun s => Flow s ∧ Live s)
    (fun _ _ _ ⟨hflow, hlive⟩ hl hstep =>
      ⟨hflow.step hcopy hstep, hlive.step hcopy hflow hl hstep⟩)
    ⟨flow_init hready store, live_unstarted hopening hclosing rfl⟩ htaken h
  have hbatch := hlive.batch hpending.started (by simp [hpending.pc])
  rw [hpending.quota] at hbatch
  exact hpending.rerequests hflow hlive.onopening hlive.onclosing
    (rxStoreDataIsReadEnable_of_received hflow.ready (by simpa using hbatch)) hbuffer hcount

/-- The batch is read, but the count cannot be copied to the application. -/
def faultedRead : List StoreLabel :=
  firstBatch ++ [.readStoreData 0x1000 storeDataBufferSize true, .wake .enabled, .ringRead false]

theorem download_not_stuck_faultedRead :
    ∃ s, exec (step copyUpToIntMax) (init opened (List.replicate 421 ⟨List.replicate 78 0, rfl⟩))
        faultedRead = some s ∧ Pending s ∧ Rerequests copyUpToIntMax s 0x1000 100 := by
  obtain ⟨s, hexec, h, -⟩ := exec_firstBatch copyUpToIntMax storeReady_opened rfl rfl
    (List.replicate 420 ⟨List.replicate 78 0, rfl⟩) List.length_replicate
    [⟨List.replicate 78 0, rfl⟩]
  obtain ⟨r, hr, hspec, hdrain⟩ := h.read_spec (show 0x1000 ≠ 0 by decide)
    copyUpToIntMax_storeDataBufferSize
  have henabled := rxStoreDataIsReadEnable_of_received h.flow.ready h.received
  have hread := exec_ringRead h.pc h.started h.onopening h.onclosing henabled (by decide) hspec hr
    false
  have hpending : Pending ((s.setRing r.ring).ret (-efault) r.out) :=
    ⟨rfl, h.started, h.incomplete, hspec.removed.queue.trans (List.drop_eq_nil_iff.mpr hdrain),
      h.quota⟩
  have hrun : exec (step copyUpToIntMax)
      (init opened (List.replicate 421 ⟨List.replicate 78 0, rfl⟩)) faultedRead =
        some ((s.setRing r.ring).ret (-efault) r.out) := by
    rw [List.replicate_succ', faultedRead, exec_append, hexec, Option.bind_some, hread]
    rfl
  have htaken : ∀ l ∈ faultedRead, ∀ s, Taken s l := by
    intro l hl s
    simp only [faultedRead, firstBatch, List.mem_append, List.mem_cons, List.mem_replicate] at hl
    refine ⟨?_, fun _ _ _ => ?_⟩ <;> rintro rfl <;> simp at hl
  exact ⟨_, hrun, hpending, download_not_stuck (fun _ _ => lt_of_copyUpToIntMax) storeReady_opened
    rfl rfl (allSteps_of_forall_mem htaken _) hrun hpending (by decide) (by decide)⟩

/-- The batch is read, the receive request fails and the device has not taken it. -/
def failedRequest (buffer : ℕ) : List StoreLabel :=
  firstBatch ++ (.readStoreData buffer storeDataBufferSize true :: toRequest) ++
    [.send false, .ack .failure false]

theorem exec_failedRequest {dev : Dev UniqueData} (hready : StoreReady dev)
    (hopening : dev.onopening = false) (hclosing : dev.onclosing = false)
    (hcopy : ∀ dst, ∀ n ≤ storeDataBufferSize, copyToUser dst n = true)
    (fs : List StoreFrame) (hlen : fs.length = framesPerRequest) (rest : List StoreFrame)
    {buffer : ℕ} (hbuffer : buffer ≠ 0) :
    ∃ s, exec (step copyToUser) (init dev (fs ++ rest)) (failedRequest buffer) = some s ∧
      Pending s ∧ s.dev.uniqueData.canFrameCountPerRequest = framesPerRequest ∧
      s.dev.onopening = false ∧ s.dev.onclosing = false ∧ s.received = 0 ∧ s.store = rest := by
  obtain ⟨s, hexec, h, hstore⟩ := exec_firstBatch copyToUser hready hopening hclosing fs hlen rest
  obtain ⟨r, hr, hspec, hdrain⟩ := h.read_spec hbuffer hcopy
  have henabled := rxStoreDataIsReadEnable_of_received h.flow.ready h.received
  have hread := exec_readStoreData h.pc h.started h.onopening h.onclosing h.incomplete henabled
    (by decide) hspec hr hdrain
  refine ⟨(s.requesting r).ret (-eio) r.out, ?_, ⟨rfl, h.started, h.incomplete, ?_, h.quota⟩,
    h.flow.ready.count, h.onopening, h.onclosing, rfl, hstore⟩
  · rw [failedRequest, exec_append, exec_append, hexec, Option.bind_some, hread, Option.bind_some]
    rfl
  · exact hspec.removed.queue.trans (List.drop_eq_nil_iff.mpr hdrain)

/-- After a reset that no batch followed, the next read waits for frames that nobody has
asked for. -/
theorem Pending.not_rerequests (hpending : Pending s)
    (hcount : s.dev.uniqueData.canFrameCountPerRequest = framesPerRequest)
    (hopening : s.dev.onopening = false) (hclosing : s.dev.onclosing = false)
    (hreceived : s.received = 0) (buffer : ℕ) {count : ℕ} (hlt : count < 2 ^ 64) :
    ¬ Rerequests copyToUser s buffer count := by
  intro h
  have hflag : s.dev.uniqueData.notifyStoreDataRecvCanFrameComplete = false := hpending.incomplete
  have hsize : s.dev.uniqueData.receivedStoreDataSize = 0 := hreceived
  have hdisabled : rxStoreDataIsReadEnable s.dev = false := by
    simp only [rxStoreDataIsReadEnable, hclosing, hsize, hcount, hflag]
    decide
  have hcall : s.step copyToUser (.readStoreData buffer count true) =
      some (s.setPc (.wait buffer count)) := by
    simp only [step, hpending.pc, hpending.started, hlt, hopening, hclosing]
    simp
  have hguard : Wake.timeout = Wake.enabled ↔ rxStoreDataIsReadEnable s.dev = true := by
    simp [hdisabled]
  have hwake : (s.setPc (.wait buffer count)).step copyToUser (.wake .timeout) =
      some ((s.setPc (.wait buffer count)).ret 0 []) := if_pos hguard
  have hresults : s.results ++ [⟨0, []⟩] = s.results := by
    refine h.not_returned [.wake .timeout] ((s.setPc (.wait buffer count)).ret 0 []) ?_ ?_
    · simp [StoreLabel.OfRead]
    · rw [exec_cons, hcall, Option.bind_some, exec_cons, hwake, Option.bind_some, exec_nil]
  have hlen := congrArg List.length hresults
  simp at hlen

/-- The store has one frame more than a batch. The receive request for it fails, and the
next read times out without a request. -/
theorem download_stuck_failedRequest :
    ∃ s, exec (step copyUpToIntMax) (init opened (List.replicate 421 ⟨List.replicate 78 0, rfl⟩))
        (failedRequest 0x1000) = some s ∧
      Pending s ∧ s.dev.onopening = false ∧ s.dev.onclosing = false ∧ s.store.length = 1 ∧
      ¬ Rerequests copyUpToIntMax s 0x1000 storeDataBufferSize := by
  obtain ⟨s, hexec, hpending, hcount, hopening, hclosing, hreceived, hstore⟩ :=
    exec_failedRequest storeReady_opened rfl rfl copyUpToIntMax_storeDataBufferSize
      (List.replicate 420 ⟨List.replicate 78 0, rfl⟩) List.length_replicate
      [⟨List.replicate 78 0, rfl⟩] (show 0x1000 ≠ 0 by decide)
  refine ⟨s, ?_, hpending, hopening, hclosing, by rw [hstore]; rfl,
    hpending.not_rerequests hcount hopening hclosing hreceived _ (by decide)⟩
  rw [List.replicate_succ', hexec]

end StoreSystem

end Ep1Cf02a

end AptUsbtrx
