import AptUsbtrx.Shared.Fifo
import AptUsbtrx.Verification.StoreData.Flow

/-! # A store-data transfer loses nothing

The ring runs like a queue that rejects nothing: the frames of the device enter it, what
the ioctls return is taken out of it. -/

namespace AptUsbtrx

open Memory Execution

namespace Ep1Cf02a

/-- What an ioctl has taken out of the ring and has still to return. -/
def IoctlPc.out : IoctlPc → List UInt8
  | .checkComplete _ out | .checkEmpty _ out | .reset _ out | .request _ out
  | .requestAck _ _ out => out
  | .idle | .startSend | .startAck _ | .wait _ _ | .ringRead _ _ => []

namespace StoreSystem

variable {copyToUser : ℕ → ℕ → Bool} {s t : StoreSystem}

/-- The bytes returned by the ioctls so far. -/
def returned (s : StoreSystem) : List UInt8 := s.results.flatMap IoctlResult.out

/-- The payloads of the frames delivered so far. -/
def payloads (s : StoreSystem) : List UInt8 := s.delivered.flatMap Subtype.val

def Succeeded (s : StoreSystem) : Prop := ∀ r ∈ s.results, 0 ≤ r.ret

/-- What a queue has done that now holds the contents of the ring. -/
structure History (s : StoreSystem) (es : List (Fifo.Op UInt8 × Fifo.Out UInt8)) : Prop where
  run : Fifo.Run (storeDataBufferSize - 1) ⟨[], 0⟩ es ⟨s.ring.queue, 0⟩
  not_cleared : ∀ e ∈ es, e.2 ≠ .cleared
  entered : Fifo.entered es = s.payloads
  taken : Fifo.taken es = s.returned ++ s.pc.out

def Lossless (s : StoreSystem) : Prop := Succeeded s → Begun s → ∃ es, History s es

/-- One more operation of the queue. -/
theorem History.snoc {es : List (Fifo.Op UInt8 × Fifo.Out UInt8)} (h : History s es)
    {op : Fifo.Op UInt8} {out : Fifo.Out UInt8}
    (hstep : Fifo.Step (storeDataBufferSize - 1) ⟨s.ring.queue, 0⟩ op out ⟨t.ring.queue, 0⟩)
    (hout : out ≠ .cleared)
    (hentered : t.payloads = s.payloads ++ Fifo.entered [(op, out)])
    (htaken : t.returned ++ t.pc.out = s.returned ++ s.pc.out ++ Fifo.taken [(op, out)]) :
    History t (es ++ [(op, out)]) where
  run := h.run.append (.cons hstep .nil)
  not_cleared e he := by
    rcases List.mem_append.mp he with he | he
    · exact h.not_cleared e he
    · rw [List.mem_singleton.mp he]
      exact hout
  entered := by rw [Fifo.entered_append, h.entered, hentered]
  taken := by rw [Fifo.taken_append, h.taken, htaken]

/-- Steps that move no byte. -/
theorem Lossless.same (h : Lossless s) (hresults : Succeeded t → Succeeded s)
    (hbegun : Begun t → Begun s) (hring : t.ring = s.ring) (hdelivered : t.delivered = s.delivered)
    (hout : t.returned ++ t.pc.out = s.returned ++ s.pc.out) : Lossless t := by
  intro hsucc hbegan
  obtain ⟨es, hrun, hcleared, hentered, htaken⟩ := h (hresults hsucc) (hbegun hbegan)
  refine ⟨es, hring.symm ▸ hrun, hcleared, ?_, htaken.trans hout.symm⟩
  rw [hentered, payloads, payloads, hdelivered]

theorem Succeeded.of_ret {ret : ℤ} {out : List UInt8} (h : Succeeded (s.ret ret out)) :
    0 ≤ ret ∧ Succeeded s :=
  ⟨h ⟨ret, out⟩ (List.mem_append_right _ List.mem_cons_self),
    fun r hr => h r (List.mem_append_left _ hr)⟩

@[simp] theorem returned_ret (s : StoreSystem) (ret : ℤ) (out : List UInt8) :
    (s.ret ret out).returned = s.returned ++ out := by
  simp [returned, StoreSystem.ret]

/-- The ioctl returns what it has taken out of the ring. -/
theorem Lossless.ret (h : Lossless s) (ret : ℤ) {out : List UInt8} (hout : s.pc.out = out) :
    Lossless (s.ret ret out) := by
  refine h.same (fun hsucc => hsucc.of_ret.2) (fun hbegun => ?_) rfl rfl ?_
  · exact .inl (hbegun.resolve_right fun hpc => hpc rfl)
  · rw [returned_ret, hout]
    exact List.append_nil _

/-- After a failure nothing is promised. -/
theorem lossless_failed {ret : ℤ} (hret : ret < 0) (out : List UInt8) :
    Lossless (s.ret ret out) :=
  fun hsucc => absurd hsucc.of_ret.1 (by omega)

theorem Lossless.setPc (h : Lossless s) (hbegun : Begun s) {pc : IoctlPc}
    (hout : pc.out = s.pc.out) : Lossless (s.setPc pc) :=
  h.same id (fun _ => hbegun) rfl rfl (congrArg (s.returned ++ ·) hout)

theorem Lossless.send (h : Lossless s) (hpc : s.pc ≠ .idle) (taken : Bool) {pc : IoctlPc}
    (hout : pc.out = s.pc.out) : Lossless ((s.take taken).setPc pc) := by
  cases taken <;> exact h.same id (fun _ => .inr hpc) rfl rfl (congrArg (s.returned ++ ·) hout)

theorem Lossless.kept (h : Lossless s) (hkept : Kept s t) : Lossless t := by
  refine h.same (fun hsucc => ?_) hkept.begun.mp hkept.ring hkept.delivered ?_
  · rw [Succeeded, hkept.results] at hsucc
    exact hsucc
  · rw [returned, returned, hkept.results, hkept.pc]

/-- The start clears the ring. -/
theorem Flow.lossless_start (h : Flow s) (hstarted : s.started = false) :
    Lossless (s.clear.setPc .startSend) := by
  intro _ _
  have hun := h.unstarted hstarted
  have hring : (s.clear.setPc .startSend).ring.queue = [] := queue_ringbufferClear s.ring
  have hout : s.returned = [] := List.flatMap_eq_nil_iff.mpr hun.out
  refine ⟨[], ?_, (fun e he => nomatch he), ?_, ?_⟩
  · rw [hring]
    exact .nil
  · change [] = s.delivered.flatMap Subtype.val
    rw [hun.delivered]
    rfl
  · change [] = s.returned ++ []
    rw [hout]
    rfl

theorem Lossless.frame (h : Lossless s) (hflow : Flow s) (hquota : 0 < s.quota) (f : StoreFrame)
    (store : List StoreFrame) : Lossless (s.deliver f store) := by
  intro hsucc _
  have hspec := hflow.deliver hquota f store
  obtain ⟨es, hhist⟩ := h hsucc (.inl (hflow.started_of_quota hquota))
  have hwrite : Fifo.Step (storeDataBufferSize - 1) ⟨s.ring.queue, 0⟩ (.write f.val) .accepted
      ⟨(s.deliver f store).ring.queue, 0⟩ := by
    rw [hspec.queue]
    refine .accept ?_
    have hfits := (hflow.frame_fits hquota).1
    have hsize : s.ring.bufferSize = storeDataBufferSize := hflow.ready.bufferSize
    rw [hsize] at hfits
    change s.ring.queue.length + f.val.length ≤ storeDataBufferSize - 1
    rw [f.property]
    exact Nat.le_sub_one_of_lt hfits
  refine ⟨_, hhist.snoc hwrite (fun hout => by cases hout) ?_ ?_⟩
  · simp [payloads, hspec.delivered, Fifo.entered]
  · simp [returned, hspec.results, hspec.pc, Fifo.taken]

theorem Lossless.ringRead (h : Lossless s) (hflow : Flow s)
    (hcopy : ∀ dst n, copyToUser dst n = true → n < 2 ^ 31) {buffer count : ℕ}
    (hpc : s.pc = .ringRead buffer count) (copied : Bool) :
    Lossless (s.readRing copyToUser buffer count copied) := by
  have hphase := hflow.phase
  simp only [Phase, hpc] at hphase
  rcases hflow.readRing_cases hcopy buffer hphase.1 copied with
    ⟨ret, hret, hread⟩ | ⟨_, r, hspec, hread⟩
  · rw [hread]
    exact lossless_failed hret _
  rw [hread]
  cases copied with
  | false => exact lossless_failed (by decide) _
  | true =>
      intro hsucc _
      obtain ⟨es, hhist⟩ := h hsucc (.inr (by simp [hpc]))
      have htake : Fifo.Step (storeDataBufferSize - 1) ⟨s.ring.queue, 0⟩ (.take count)
          (.taken (s.ring.queue.take count)) ⟨r.ring.queue, 0⟩ := by
        rw [hspec.removed.queue]
        exact .take
      have hhist' : History ((s.setRing r.ring).setPc (.checkComplete r.ret r.out)) _ :=
        hhist.snoc htake (fun hout => by cases hout) ?_ ?_
      · exact ⟨_, hhist'⟩
      · exact (List.append_nil _).symm
      · change s.returned ++ r.out = _
        rw [hspec.out, hpc]
        simp [IoctlPc.out, Fifo.taken]

theorem Lossless.step (hcopy : ∀ dst n, copyToUser dst n = true → n < 2 ^ 31) (hflow : Flow s)
    (h : Lossless s) {l : StoreLabel} (hstep : s.step copyToUser l = some t) : Lossless t := by
  have hbegun : s.pc ≠ .idle → Begun s := .inr
  cases step_of_eq_some hstep with
  | start _ hstarted => exact hflow.lossless_start hstarted
  | refused _ _ hret => exact lossless_failed hret _
  | read hpc hstarted _ => exact h.setPc (.inl hstarted) (by rw [hpc]; rfl)
  | enabled hpc _ => exact h.setPc (hbegun (by simp [hpc])) (by rw [hpc]; rfl)
  | waited hpc _ => exact h.ret _ (by rw [hpc]; rfl)
  | ringRead hpc => exact h.ringRead hflow hcopy hpc _
  | complete hpc _ => exact h.ret _ (by rw [hpc]; rfl)
  | incomplete hpc _ => exact h.setPc (hbegun (by simp [hpc])) (by rw [hpc]; rfl)
  | remaining hpc _ => exact h.ret _ (by rw [hpc]; rfl)
  | drained hpc _ => exact h.setPc (hbegun (by simp [hpc])) (by rw [hpc]; rfl)
  | reset hpc =>
      exact h.same id (fun _ => hbegun (by simp [hpc])) rfl rfl
        (congrArg (s.returned ++ ·) (by rw [hpc]; rfl))
  | sendStart hpc => exact h.send (by simp [hpc]) _ (by rw [hpc]; rfl)
  | sendRequest hpc => exact h.send (by simp [hpc]) _ (by rw [hpc]; rfl)
  | ackStart hpc _ => exact h.ret _ (by rw [hpc]; rfl)
  | ackRequest hpc _ => exact h.ret _ (by rw [hpc]; rfl)
  | frame _ hquota => exact h.frame hflow hquota _ _
  | storeEnd _ _ => exact h.kept (kept_storeEnd hflow.ready.ongoing _)
  | other hframe hcomplete => exact h.kept (kept_other hflow.ready.ongoing _ hframe hcomplete)
  | disconnect => exact h.kept (kept_disconnect s)

@[simp] theorem take_delivered (s : StoreSystem) (taken : Bool) :
    (s.take taken).delivered = s.delivered := by
  cases taken <;> rfl

@[simp] theorem take_store (s : StoreSystem) (taken : Bool) : (s.take taken).store = s.store := by
  cases taken <;> rfl

/-- No frame leaves the store but by a delivery. -/
theorem delivered_append_store_step {l : StoreLabel} (hflow : Flow s)
    (hstep : s.step copyToUser l = some t) :
    t.delivered ++ t.store = s.delivered ++ s.store := by
  cases step_of_eq_some hstep with
  | @frame f store hstore hquota =>
      have hspec := hflow.deliver hquota f store
      rw [hspec.delivered, hspec.store, hstore, List.append_assoc, List.singleton_append]
  | sendStart | sendRequest => simp only [setPc, take_delivered, take_store]
  | ringRead hpc =>
      simp only [readRing]
      split
      · rfl
      · split
        · rfl
        · split <;> rfl
  | _ => rfl

theorem lossless_of_exec (hcopy : ∀ dst n, copyToUser dst n = true → n < 2 ^ 31)
    {dev : Dev UniqueData} (hready : StoreReady dev) {store : List StoreFrame}
    {ls : List StoreLabel} (h : exec (step copyToUser) (init dev store) ls = some s) :
    Flow s ∧ Lossless s ∧ s.delivered ++ s.store = store :=
  exec_invariant (I := fun s => Flow s ∧ Lossless s ∧ s.delivered ++ s.store = store)
    (fun _ _ _ ⟨hflow, hlossless, hstore⟩ hstep =>
      ⟨hflow.step hcopy hstep, hlossless.step hcopy hflow hstep,
        (delivered_append_store_step hflow hstep).trans hstore⟩)
    ⟨flow_init hready store,
      (fun _ hbegun => nomatch hbegun.resolve_right fun hpc => hpc rfl), rfl⟩
    h

/-- While every ioctl succeeds, no frame is rejected and the application has a prefix of
the payloads in the order of the store. -/
theorem download_loses_nothing (hcopy : ∀ dst n, copyToUser dst n = true → n < 2 ^ 31)
    {dev : Dev UniqueData} (hready : StoreReady dev) {store : List StoreFrame}
    {ls : List StoreLabel} (h : exec (step copyToUser) (init dev store) ls = some s)
    (hsucc : Succeeded s) :
    s.rejected = 0 ∧ s.returned <+: s.payloads ∧ s.delivered <+: store := by
  obtain ⟨hflow, hlossless, hstore⟩ := lossless_of_exec hcopy hready h
  refine ⟨hflow.rejected, ?_, ⟨s.store, hstore⟩⟩
  by_cases hbegun : Begun s
  · obtain ⟨es, hrun, hcleared, hentered, htaken⟩ := hlossless hsucc hbegun
    have hcons := hrun.conservation hcleared
    rw [hentered, htaken, List.nil_append] at hcons
    rw [hcons, List.append_assoc]
    exact List.prefix_append _ _
  · have hstarted : s.started = false := by
      by_contra hne
      exact hbegun (.inl (by simpa using hne))
    have hout : s.returned = [] := List.flatMap_eq_nil_iff.mpr (hflow.unstarted hstarted).out
    rw [hout]
    exact List.nil_prefix

/-- A store of one frame more than a batch holds. -/
def batchAndOne : List StoreFrame := List.replicate (framesPerRequest + 1) ⟨List.replicate 78 7, rfl⟩

/-- A whole batch, a read that takes all of it and requests the next one, and the last frame. -/
def twoBatches : List StoreLabel :=
  [.start, .send true, .ack .success true] ++ List.replicate framesPerRequest .frame ++
    [.readStoreData 0x1000 40000 true, .wake .enabled, .ringRead true, .tau, .tau, .tau,
      .send true, .ack .success true, .frame, .complete, .readStoreData 0x1000 40000 true,
      .wake .enabled, .ringRead true, .tau]

theorem download_loses_nothing_twoBatches :
    ∃ s, exec (step copyUpToIntMax) (init opened batchAndOne) twoBatches = some s ∧
      s.results.map IoctlResult.ret = [0, 32760, 78] ∧
      s.rejected = 0 ∧ s.returned <+: s.payloads ∧ s.delivered <+: batchAndOne := by
  have hresults : (exec (step copyUpToIntMax) (init opened batchAndOne) twoBatches).map
      (fun s => s.results.map IoctlResult.ret) = some [0, 32760, 78] := by decide +kernel
  obtain ⟨s, hexec, hs⟩ := Option.map_eq_some_iff.mp hresults
  have hsucc : Succeeded s := by
    have hret : ∀ ret ∈ s.results.map IoctlResult.ret, 0 ≤ ret := by
      rw [hs]
      decide
    exact List.forall_mem_map.mp hret
  exact ⟨s, hexec, hs, download_loses_nothing (fun _ _ => lt_of_copyUpToIntMax) storeReady_opened
    hexec hsucc⟩

end StoreSystem

end Ep1Cf02a

end AptUsbtrx
