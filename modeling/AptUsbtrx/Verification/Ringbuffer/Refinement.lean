import AptUsbtrx.Shared.Fifo
import AptUsbtrx.Verification.Ringbuffer.Operations

/-! # The ring buffer is a queue

Every sequence of operations on an initialised ring behaves like the same sequence on a
queue of bytes that may reject a write only when it would leave no byte unused. -/

namespace AptUsbtrx

/-- A call of an operation of the ring buffer. -/
inductive RingOp where
  | write (buffer : List UInt8)
  | read (buffer size : ℕ)
  | rawread (buffer size : ℕ)
  | clear
  deriving DecidableEq

/-- No pointer sum of the call reaches beyond the address space, no pointer is `NULL`. -/
def RingOp.Legal (endPtr : ℕ) : RingOp → Prop
  | .write buffer => endPtr + buffer.length < 2 ^ 64
  | .read buffer size | .rawread buffer size => buffer ≠ 0 ∧ endPtr + size < 2 ^ 64
  | .clear => True

/-- The ring after a call. -/
def ringStep (copyToUser : ℕ → ℕ → Bool) (ring : Ringbuffer) : RingOp → Ringbuffer
  | .write buffer => (ringbufferWrite ring buffer buffer.length).2
  | .read buffer size => (ringbufferRead copyToUser ring buffer size).ring
  | .rawread buffer size => (ringbufferRawread ring buffer size).ring
  | .clear => ringbufferClear ring

/-- The outcome of a call as its caller sees it. -/
def ringOut (copyToUser : ℕ → ℕ → Bool) (ring : Ringbuffer) : RingOp → Fifo.Out UInt8
  | .write buffer =>
      if (ringbufferWrite ring buffer buffer.length).1 < 0 then .rejected else .accepted
  | .read buffer size => .taken (ringbufferRead copyToUser ring buffer size).out
  | .rawread buffer size => .taken (ringbufferRawread ring buffer size).out
  | .clear => .cleared

/-- The call as an operation of the queue. -/
def RingOp.toFifo : RingOp → Fifo.Op UInt8
  | .write buffer => .write buffer
  | .read _ size | .rawread _ size => .take size
  | .clear => .clear

/-- The state of the queue that a ring represents. -/
structure Represents (endPtr size : ℕ) (ring : Ringbuffer) (s : Fifo.State UInt8) : Prop where
  wf : ring.Wf
  endPtr_eq : ring.endPtr = endPtr
  bufferSize_eq : ring.bufferSize = size
  queue_eq : ring.queue = s.queue
  skipCount_eq : ring.skipCount = s.skipped % 2 ^ 64

section

variable {ring : Ringbuffer} {endPtr size : ℕ} {s : Fifo.State UInt8}

theorem Ringbuffer.Wf.endPtr_eq_of {ring' : Ringbuffer} (hw : ring.Wf) (hw' : ring'.Wf)
    (hbegin : ring'.beginPtr = ring.beginPtr) (hsize : ring'.bufferSize = ring.bufferSize) :
    ring'.endPtr = ring.endPtr := by
  rw [hw.end_eq, hw'.end_eq, hbegin, hsize]

theorem Represents.write (h : Represents endPtr size ring s) {data : List UInt8}
    (hlegal : endPtr + data.length < 2 ^ 64) :
    ∃ t, Fifo.Step size s (.write data)
        (if (ringbufferWrite ring data data.length).1 < 0 then .rejected else .accepted) t ∧
      Represents endPtr size (ringbufferWrite ring data data.length).2 t := by
  obtain ⟨hw, rfl, rfl, hqueue, hskip⟩ := h
  by_cases hfits : ring.Fits data.length
  · have hle := le_bufferSize_of_fits hw hfits
    obtain ⟨hret, hwritten⟩ := ringbufferWrite_of_fits hw rfl hlegal hfits
    rw [hret, if_neg (by omega)]
    rw [hqueue] at hle
    exact ⟨_, .accept hle, hwritten.wf,
      hw.endPtr_eq_of hwritten.wf hwritten.beginPtr hwritten.bufferSize, hwritten.bufferSize,
      by rw [hwritten.queue, hqueue], hwritten.skipCount.trans hskip⟩
  · have hpos := pos_of_not_fits hw hfits
    obtain h | ⟨-, hres⟩ := ringbufferWrite_cases hw rfl (hw.writePtr_add_lt hlegal) hpos
    · exact absurd h.1 hfits
    · have hfull : ring.bufferSize ≤ s.queue.length + data.length := by
        rw [← hqueue]
        exact Nat.le_of_not_lt fun hlt => hfits (fits_of_lt hlt)
      rw [hres, if_pos (by simp)]
      refine ⟨_, .reject hfull, wf_skipped hw _, rfl, rfl, hqueue, ?_⟩
      simp only [skipped, hskip, Nat.mod_add_mod]

theorem Represents.read (h : Represents endPtr size ring s) {n : ℕ} {result : ReadResult}
    (hread : ReadSpec ring n result) :
    ∃ t, Fifo.Step size s (.take n) (.taken result.out) t ∧ Represents endPtr size result.ring t := by
  obtain ⟨hw, rfl, rfl, hqueue, hskip⟩ := h
  have hr := hread.removed
  have htake : Fifo.Step ring.bufferSize s (.take n) (.taken result.out)
      { s with queue := s.queue.drop n } := by
    rw [hread.out, hqueue]
    exact .take
  exact ⟨_, htake, hr.wf, hw.endPtr_eq_of hr.wf hr.beginPtr hr.bufferSize, hr.bufferSize,
    by rw [hr.queue, hqueue], hr.skipCount.trans hskip⟩

/-- Every legal call does what the queue does. -/
theorem Represents.step {copyToUser : ℕ → ℕ → Bool} (hcopy : ∀ dst n, copyToUser dst n = true)
    (ring : Ringbuffer) (s : Fifo.State UInt8) (op : RingOp) (hlegal : op.Legal endPtr)
    (h : Represents endPtr size ring s) :
    ∃ t, Fifo.Step size s op.toFifo (ringOut copyToUser ring op) t ∧
      Represents endPtr size (ringStep copyToUser ring op) t := by
  cases op with
  | write buffer => exact h.write hlegal
  | read buffer n =>
      exact h.read (ringbufferReadWith_spec h.wf hlegal.1 (h.endPtr_eq ▸ hlegal.2)
        fun dst n _ => hcopy dst n)
  | rawread buffer n =>
      exact h.read (ringbufferRawread_spec h.wf hlegal.1 (h.endPtr_eq ▸ hlegal.2))
  | clear =>
      exact ⟨_, .clear, wf_ringbufferClear h.wf, h.endPtr_eq, h.bufferSize_eq,
        queue_ringbufferClear ring, h.skipCount_eq⟩

theorem represents_init {buffer : ℕ} (hsize : 1 ≤ size) (hlt : buffer + size < 2 ^ 64) :
    Represents (buffer + size) size (ringbufferInit buffer size) ⟨[], 0⟩ :=
  ⟨wf_ringbufferInit hsize hlt, ptrAdd_of_lt hlt, rfl, queue_ringbufferInit buffer size, rfl⟩

end

/-- What the calls do in one state, in terms of the bytes held. -/
structure FifoSpec (copyToUser : ℕ → ℕ → Bool) (ring : Ringbuffer) : Prop where
  begin_le_read : ring.beginPtr ≤ ring.readPtr
  read_le_end : ring.readPtr ≤ ring.endPtr
  begin_le_write : ring.beginPtr ≤ ring.writePtr
  write_le_end : ring.writePtr ≤ ring.endPtr
  begin_lt_write : ring.readPtr > ring.writePtr → ring.writePtr > ring.beginPtr
  usedSize : ringbufferGetUsedSize ring = ring.queue.length
  isEmpty : ringbufferIsEmpty ring = true ↔ ring.queue = []
  write : ∀ data : List UInt8, 1 ≤ data.length → ring.endPtr + data.length < 2 ^ 64 →
    (ringbufferWrite ring data data.length).1 = data.length ∧
        (ringbufferWrite ring data data.length).2.queue = ring.queue ++ data ∧
        (ringbufferWrite ring data data.length).2.skipCount = ring.skipCount ∨
      (ringbufferWrite ring data data.length).1 = -1 ∧
        (ringbufferWrite ring data data.length).2.queue = ring.queue ∧
        (ringbufferWrite ring data data.length).2.readPtr = ring.readPtr ∧
        (ringbufferWrite ring data data.length).2.writePtr = ring.writePtr ∧
        (ringbufferWrite ring data data.length).2.skipCount =
          (ring.skipCount + data.length) % 2 ^ 64
  write_accepted : ∀ data : List UInt8, 1 ≤ data.length →
    ring.endPtr + data.length < 2 ^ 64 → ring.queue.length + data.length ≤ ring.bufferSize - 1 →
    (ringbufferWrite ring data data.length).1 = data.length
  read : ∀ buffer n, buffer ≠ 0 → ring.endPtr + n < 2 ^ 64 →
    (ringbufferRead copyToUser ring buffer n).ret = (min n ring.queue.length : ℕ) ∧
      (ringbufferRead copyToUser ring buffer n).out = ring.queue.take n ∧
      (ringbufferRead copyToUser ring buffer n).ring.queue = ring.queue.drop n
  rawread : ∀ buffer n, buffer ≠ 0 → ring.endPtr + n < 2 ^ 64 →
    (ringbufferRawread ring buffer n).ret = (min n ring.queue.length : ℕ) ∧
      (ringbufferRawread ring buffer n).out = ring.queue.take n ∧
      (ringbufferRawread ring buffer n).ring.queue = ring.queue.drop n
  clear : (ringbufferClear ring).queue = []

theorem fifoSpec_of_wf {copyToUser : ℕ → ℕ → Bool} (hcopy : ∀ dst n, copyToUser dst n = true)
    {ring : Ringbuffer} (hw : ring.Wf) : FifoSpec copyToUser ring where
  begin_le_read := hw.begin_le_read
  read_le_end := hw.read_le_end
  begin_le_write := hw.begin_le_write
  write_le_end := hw.write_le_end
  begin_lt_write := hw.begin_lt_write
  usedSize := ringbufferGetUsedSize_eq hw
  isEmpty := ringbufferIsEmpty_iff hw
  write data hpos hsize := by
    rcases ringbufferWrite_cases hw rfl (hw.writePtr_add_lt hsize) hpos with
      ⟨-, hret, hwritten⟩ | ⟨-, hres⟩
    · exact .inl ⟨hret, hwritten.queue, hwritten.skipCount⟩
    · rw [hres]
      exact .inr ⟨rfl, rfl, rfl, rfl, rfl⟩
  write_accepted data hpos hsize hroom :=
    have := hw.bufferSize_pos
    (ringbufferWrite_of_fits hw rfl hsize (fits_of_lt (by omega))).1
  read buffer n hbuffer hsize :=
    have h : ReadSpec ring n (ringbufferRead copyToUser ring buffer n) :=
      ringbufferReadWith_spec hw hbuffer hsize fun dst n _ => hcopy dst n
    ⟨h.ret, h.out, h.removed.queue⟩
  rawread buffer n hbuffer hsize :=
    have h := ringbufferRawread_spec hw hbuffer hsize
    ⟨h.ret, h.out, h.removed.queue⟩
  clear := queue_ringbufferClear ring

/-- Every sequence of calls from an initialised ring is a run of the queue with the same
outcomes, and the ring it reaches meets the specification. -/
theorem ringbuffer_refines_fifo {copyToUser : ℕ → ℕ → Bool}
    (hcopy : ∀ dst n, copyToUser dst n = true) {buffer size : ℕ} (hsize : 1 ≤ size)
    (hlt : buffer + size < 2 ^ 64) (ops : List RingOp)
    (hops : ∀ op ∈ ops, op.Legal (buffer + size)) :
    FifoSpec copyToUser (ops.foldl (ringStep copyToUser) (ringbufferInit buffer size)) ∧
      ∃ s, Fifo.Run size ⟨[], 0⟩
          (Fifo.trace (ringStep copyToUser) RingOp.toFifo (ringOut copyToUser)
            (ringbufferInit buffer size) ops) s ∧
        (ops.foldl (ringStep copyToUser) (ringbufferInit buffer size)).queue = s.queue ∧
        (ops.foldl (ringStep copyToUser) (ringbufferInit buffer size)).skipCount =
          s.skipped % 2 ^ 64 := by
  obtain ⟨s, hrun, hrep⟩ := Fifo.run_trace (ringStep copyToUser) RingOp.toFifo
    (ringOut copyToUser) (Represents.step hcopy) (represents_init hsize hlt) ops hops
  exact ⟨fifoSpec_of_wf hcopy hrep.wf, s, hrun, hrep.queue_eq, hrep.skipCount_eq⟩

/-- A ring of four bytes that wraps around, rejects a write and is cleared. -/
theorem ringbuffer_refines_fifo_wrap :
    FifoSpec (fun _ _ => true)
      ([.write [1, 2, 3], .read 1 2, .write [4, 5], .write [6, 7], .rawread 1 9, .clear].foldl
        (ringStep fun _ _ => true) (ringbufferInit 4096 4)) :=
  (ringbuffer_refines_fifo (fun _ _ => rfl) (by decide) (by decide)
    [.write [1, 2, 3], .read 1 2, .write [4, 5], .write [6, 7], .rawread 1 9, .clear]
    (by simp [RingOp.Legal])).1

end AptUsbtrx
