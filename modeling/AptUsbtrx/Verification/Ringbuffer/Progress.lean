import AptUsbtrx.Verification.Ringbuffer.Calls

/-! # Every call on the ring buffer returns

Neither side ever waits for the other: a call can always go on, and it is through after a number
of its own accesses that the size bounds. -/

namespace AptUsbtrx

open Memory Execution

/-- A bound on the accesses left of a write. -/
def WriteCall.left : WriteCall → ℕ
  | .idle => 0
  | .entered buffer _ => buffer.length + 4
  | .loaded buffer _ _ => buffer.length + 3
  | .copying _ _ plan => plan.stores.length + 2
  | .skipping _ _ _ => 1

/-- A bound on the accesses left of a read. -/
def ReadCall.left : ReadCall → ℕ
  | .idle => 0
  | .entered buffer _ => buffer.length + 3
  | .loaded buffer _ _ => buffer.length + 2
  | .copying _ _ plan => plan.loads.length + 1

theorem length_stores_writePlan_le (beginPtr endPtr pread pwrite : ℕ) (data : List UInt8) :
    (writePlan beginPtr endPtr pread pwrite data).stores.length ≤ data.length := by
  rw [writePlan]
  dsimp only
  split
  · split
    · simp [memcpyStores]
    · split
      · simp only [memcpyStores, List.length_append, List.length_mapIdx, List.length_take,
          length_slice]
        omega
      · exact Nat.zero_le _
  · split
    · simp [memcpyStores]
    · exact Nat.zero_le _

theorem writerAccess_left_lt {s t : RingCalls} (h : WriterAccess s t) :
    t.writer.left < s.writer.left := by
  cases h with
  | loadRead h =>
      rw [h]
      exact Nat.lt_succ_self _
  | @loadWrite buffer held pread h =>
      rw [h]
      have := length_stores_writePlan_le s.ring.beginPtr s.ring.endPtr pread s.ring.writePtr buffer
      simp only [WriteCall.left]
      omega
  | copy h hk =>
      have hlt := (List.getElem?_eq_some_iff.mp hk).1
      rw [h]
      simp only [WriteCall.left, List.length_eraseIdx_of_lt hlt]
      omega
  | store h | storeSkipping h | skip h =>
      rw [h]
      simp [WriteCall.left]

theorem writerStep_isSome {s : RingCalls} (h : s.writer ≠ .idle) : (writerStep s 0).isSome := by
  rw [writerStep]
  split
  next hw => exact absurd hw h
  next => rfl
  next => rfl
  next =>
    dsimp only
    split <;> rfl
  next buffer held stores pwrite skipCount hne hw =>
    cases stores with
    | nil => exact absurd rfl hne
    | cons e stores => rfl
  next => rfl

theorem readerAccess_left_lt {beginPtr size : ℕ} {s t : RingCalls} (hs : RingInv beginPtr size s)
    (h : ReaderAccess s t) : t.reader.left < s.reader.left := by
  have hreader := hs.reader
  cases h with
  | loadRead h =>
      rw [h]
      exact Nat.lt_succ_self _
  | @loadWrite buffer held pread h =>
      rw [h] at hreader ⊢
      obtain ⟨hne, hlt, -, rfl⟩ := hreader
      have hplan := readPlan_spec hs.stand (List.length_pos_iff.mpr hne) hlt
      have hlen := hplan.length_loads
      have hsize := hplan.readSize
      simp only [ReadCall.left, hs.beginPtr_eq, hs.endPtr_eq]
      omega
  | copy h hk =>
      have hlt := (List.getElem?_eq_some_iff.mp hk).1
      rw [h]
      simp only [ReadCall.left, List.length_eraseIdx_of_lt hlt]
      omega
  | store h =>
      rw [h]
      exact Nat.succ_pos _

theorem readerStep_isSome {s : RingCalls} (h : s.reader ≠ .idle) : (readerStep s 0).isSome := by
  rw [readerStep]
  split
  next hr => exact absurd hr h
  next => rfl
  next => rfl
  next => rfl
  next buffer held loads pread readSize hne hr =>
    cases loads with
    | nil => exact absurd rfl hne
    | cons e loads => rfl

/-- A write that goes on alone returns. -/
theorem exists_writer_returns (s : RingCalls) :
    ∃ ks : List ℕ, ∃ t, exec ringCallsStep s (ks.map .writer) = some t ∧ t.writer = .idle := by
  generalize hn : s.writer.left = n
  induction n using Nat.strong_induction_on generalizing s with
  | _ n ih =>
      by_cases hidle : s.writer = .idle
      · exact ⟨[], s, rfl, hidle⟩
      · obtain ⟨u, hu⟩ := Option.isSome_iff_exists.mp (writerStep_isSome hidle)
        have hlt := writerAccess_left_lt (writerAccess_of_writerStep hu)
        obtain ⟨ks, t, hexec, ht⟩ := ih u.writer.left (by omega) u rfl
        refine ⟨0 :: ks, t, ?_, ht⟩
        rw [List.map_cons, exec_cons, ringCallsStep, hu]
        exact hexec

/-- A read that goes on alone returns. -/
theorem exists_reader_returns {beginPtr size : ℕ} {s : RingCalls} (hs : RingInv beginPtr size s) :
    ∃ ks : List ℕ, ∃ t, exec ringCallsStep s (ks.map .reader) = some t ∧ t.reader = .idle := by
  generalize hn : s.reader.left = n
  induction n using Nat.strong_induction_on generalizing s with
  | _ n ih =>
      by_cases hidle : s.reader = .idle
      · exact ⟨[], s, rfl, hidle⟩
      · obtain ⟨u, hu⟩ := Option.isSome_iff_exists.mp (readerStep_isSome hidle)
        have haccess := readerAccess_of_readerStep hu
        have hlt := readerAccess_left_lt hs haccess
        obtain ⟨ks, t, hexec, ht⟩ := ih u.reader.left (by omega) (hs.readerAccess haccess) rfl
        refine ⟨0 :: ks, t, ?_, ht⟩
        rw [List.map_cons, exec_cons, ringCallsStep, hu]
        exact hexec

def RingLabel.isWriter : RingLabel → Bool
  | .writer _ => true
  | _ => false

def RingLabel.isReader : RingLabel → Bool
  | .reader _ => true
  | _ => false

theorem WriterAccess.reader_eq {s t : RingCalls} (h : WriterAccess s t) : t.reader = s.reader := by
  cases h <;> rfl

theorem ReaderAccess.writer_eq {s t : RingCalls} (h : ReaderAccess s t) : t.writer = s.writer := by
  cases h <;> rfl

/-- A label that begins no write takes an access of the write or leaves it alone. -/
theorem writer_left_step {s t : RingCalls} {l : RingLabel} (hl : ∀ buffer, l ≠ .write buffer)
    (h : ringCallsStep s l = some t) :
    (if l.isWriter then 1 else 0) + t.writer.left ≤ s.writer.left := by
  cases l with
  | write buffer => exact absurd rfl (hl buffer)
  | writer k =>
      have := writerAccess_left_lt (writerAccess_of_writerStep h)
      simp only [RingLabel.isWriter, if_true]
      omega
  | read buffer =>
      simp only [ringCallsStep, Option.ite_none_right_eq_some] at h
      obtain ⟨-, h⟩ := h
      split at h <;> cases h <;> simp [RingLabel.isWriter]
  | reader k =>
      have := (readerAccess_of_readerStep h).writer_eq
      simp [RingLabel.isWriter, this]
  | fault =>
      simp only [ringCallsStep] at h
      split at h <;> cases h
      simp [RingLabel.isWriter]

/-- A label that begins no read takes an access of the read or leaves it alone, or ends it. -/
theorem reader_left_step {beginPtr size : ℕ} {s t : RingCalls} {l : RingLabel}
    (hs : RingInv beginPtr size s) (hl : ∀ buffer, l ≠ .read buffer)
    (h : ringCallsStep s l = some t) :
    (if l.isReader then 1 else 0) + t.reader.left ≤ s.reader.left := by
  cases l with
  | read buffer => exact absurd rfl (hl buffer)
  | reader k =>
      have := readerAccess_left_lt hs (readerAccess_of_readerStep h)
      simp only [RingLabel.isReader, if_true]
      omega
  | write buffer =>
      simp only [ringCallsStep, Option.ite_none_right_eq_some] at h
      obtain ⟨-, h⟩ := h
      split at h <;> cases h <;> simp [RingLabel.isReader]
  | writer k =>
      have := (writerAccess_of_writerStep h).reader_eq
      simp [RingLabel.isReader, this]
  | fault =>
      simp only [ringCallsStep] at h
      split at h <;> cases h
      simp [RingLabel.isReader, ReadCall.left]

/-- Neither side waits: a call that has begun can always go on, and no call takes more accesses
than it has left, whatever the other side does. -/
structure WaitFree (s : RingCalls) (ls : List RingLabel) (t : RingCalls) : Prop where
  write_left : (∀ l ∈ ls, ∀ buffer, l ≠ .write buffer) →
    ls.countP RingLabel.isWriter + t.writer.left ≤ s.writer.left
  read_left : (∀ l ∈ ls, ∀ buffer, l ≠ .read buffer) →
    ls.countP RingLabel.isReader + t.reader.left ≤ s.reader.left
  writer_goes_on : t.writer ≠ .idle → (ringCallsStep t (.writer 0)).isSome
  reader_goes_on : t.reader ≠ .idle → (ringCallsStep t (.reader 0)).isSome

theorem waitFree_of_ringInv {beginPtr size : ℕ} (hsize : 1 ≤ size) (hlt : beginPtr + size < 2 ^ 64)
    {s t : RingCalls} {ls : List RingLabel} (hs : RingInv beginPtr size s)
    (hlegal : ∀ l ∈ ls, l.Legal (beginPtr + size)) (h : exec ringCallsStep s ls = some t) :
    WaitFree s ls t := by
  induction ls generalizing s with
  | nil =>
      cases h
      exact ⟨by simp, by simp, writerStep_isSome, readerStep_isSome⟩
  | cons l ls ih =>
      obtain ⟨u, hu, h⟩ := Option.bind_eq_some_iff.mp h
      rw [List.forall_mem_cons] at hlegal
      obtain ⟨hwrite, hread, hwriter, hreader⟩ :=
        ih (hs.step hsize hlt hlegal.1 hu) hlegal.2 h
      refine ⟨?_, ?_, hwriter, hreader⟩
      · intro hl
        rw [List.forall_mem_cons] at hl
        have hstep := writer_left_step hl.1 hu
        have hrest := hwrite hl.2
        rw [List.countP_cons]
        omega
      · intro hl
        rw [List.forall_mem_cons] at hl
        have hstep := reader_left_step hs hl.1 hu
        have hrest := hread hl.2
        rw [List.countP_cons]
        omega

theorem ringCalls_waitFree {buffer size : ℕ} (hsize : 1 ≤ size) (hlt : buffer + size < 2 ^ 64)
    {ks ls : List RingLabel} (hks : ∀ l ∈ ks, l.Legal (buffer + size))
    (hls : ∀ l ∈ ls, l.Legal (buffer + size)) {s t : RingCalls}
    (hs : exec ringCallsStep (RingCalls.start buffer size) ks = some s)
    (ht : exec ringCallsStep s ls = some t) : WaitFree s ls t :=
  waitFree_of_ringInv hsize hlt (ringInv_of_exec hsize hlt hks (ringInv_start hlt) hs) hls ht

/-- A write of three bytes with a read that begins in the middle of it. -/
theorem ringCalls_waitFree_overlap :
    ∃ s t, exec ringCallsStep (RingCalls.start 4096 4) [.write [1, 2, 3]] = some s ∧
      exec ringCallsStep s
        [.writer 0, .writer 0, .writer 2, .read [0, 0], .writer 0, .reader 0, .writer 0,
          .writer 0] = some t ∧
      s.writer.left = 7 ∧ t.writer.left = 0 ∧
      WaitFree s [.writer 0, .writer 0, .writer 2, .read [0, 0], .writer 0, .reader 0, .writer 0,
        .writer 0] t := by
  refine ⟨_, _, rfl, rfl, rfl, rfl, ?_⟩
  have hks : ∀ l ∈ ([.write [1, 2, 3]] : List RingLabel), l.Legal (4096 + 4) := by
    simp [RingLabel.Legal]
  have hls : ∀ l ∈ ([.writer 0, .writer 0, .writer 2, .read [0, 0], .writer 0, .reader 0, .writer 0,
      .writer 0] : List RingLabel), l.Legal (4096 + 4) := by
    simp [RingLabel.Legal]
  exact ringCalls_waitFree (by decide) (by decide) hks hls rfl rfl

end AptUsbtrx
