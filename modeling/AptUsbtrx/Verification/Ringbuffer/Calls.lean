import AptUsbtrx.Verification.Ringbuffer.Plans

/-! # A writer and a reader at the same time

The bytes that the reads return and the bytes in the ring are the bytes of the accepted writes,
whatever the order in which the accesses of the two calls take place. A call plans with the
pointer of the other side as it was when it loaded it; the other side only moves on, which makes
more room or more bytes than the plan knows of. -/

namespace AptUsbtrx

open Memory RingIndex Execution

/-! ### The accesses of a call -/

/-- What one access of the writer does. -/
inductive WriterAccess (s : RingCalls) : RingCalls → Prop where
  | loadRead {buffer : List UInt8} {held : ℕ} (h : s.writer = .entered buffer held) :
      WriterAccess s { s with writer := .loaded buffer held s.ring.readPtr }
  | loadWrite {buffer : List UInt8} {held pread : ℕ} (h : s.writer = .loaded buffer held pread) :
      WriterAccess s { s with
        writer := .copying buffer held
          (writePlan s.ring.beginPtr s.ring.endPtr pread s.ring.writePtr buffer) }
  | copy {buffer : List UInt8} {held pwrite skipCount : ℕ} {stores : List (ℕ × UInt8)} {k : ℕ}
      {dst : ℕ} {byte : UInt8} (h : s.writer = .copying buffer held ⟨stores, pwrite, skipCount⟩)
      (hk : stores[k]? = some (dst, byte)) :
      WriterAccess s { s with
        ring := s.ring.store dst [byte]
        writer := .copying buffer held ⟨stores.eraseIdx k, pwrite, skipCount⟩ }
  | store {buffer : List UInt8} {held pwrite : ℕ}
      (h : s.writer = .copying buffer held ⟨[], pwrite, 0⟩) :
      WriterAccess s { s with
        ring := { s.ring with writePtr := pwrite }
        writer := .idle
        log := s.log ++ [.accepted buffer held] }
  | storeSkipping {buffer : List UInt8} {held pwrite skipCount : ℕ}
      (h : s.writer = .copying buffer held ⟨[], pwrite, skipCount⟩) (hpos : skipCount > 0) :
      WriterAccess s { s with
        ring := { s.ring with writePtr := pwrite }
        writer := .skipping buffer held skipCount }
  | skip {buffer : List UInt8} {held skipCount : ℕ}
      (h : s.writer = .skipping buffer held skipCount) :
      WriterAccess s { s with
        ring := { s.ring with
          skipCount := (s.ring.skipCount + skipCount) % 2 ^ 64
          logWriteBufferIsFull := false }
        writer := .idle
        log := s.log ++ [.rejected buffer held] }

theorem writerAccess_of_writerStep {s t : RingCalls} {k : ℕ} (h : writerStep s k = some t) :
    WriterAccess s t := by
  rw [writerStep] at h
  split at h
  next => cases h
  next buffer held hw =>
    cases h
    exact .loadRead hw
  next buffer held pread hw =>
    cases h
    exact .loadWrite hw
  next buffer held pwrite skipCount hw =>
    dsimp only at h
    split at h
    · cases h
      exact .storeSkipping hw ‹_›
    · cases h
      obtain rfl : skipCount = 0 := by omega
      exact .store hw
  next buffer held stores pwrite skipCount hne hw =>
    obtain ⟨⟨dst, byte⟩, hk, rfl⟩ := Option.map_eq_some_iff.mp h
    exact .copy hw hk
  next buffer held skipCount hw =>
    cases h
    exact .skip hw

/-- What one access of the reader does. -/
inductive ReaderAccess (s : RingCalls) : RingCalls → Prop where
  | loadRead {buffer : List UInt8} {held : ℕ} (h : s.reader = .entered buffer held) :
      ReaderAccess s { s with reader := .loaded buffer held s.ring.readPtr }
  | loadWrite {buffer : List UInt8} {held pread : ℕ} (h : s.reader = .loaded buffer held pread) :
      ReaderAccess s { s with
        reader := .copying buffer held
          (readPlan s.ring.beginPtr s.ring.endPtr pread s.ring.writePtr buffer.length) }
  | copy {buffer : List UInt8} {held pread readSize : ℕ} {loads : List (ℕ × ℕ)} {k dst src : ℕ}
      (h : s.reader = .copying buffer held ⟨loads, pread, readSize⟩)
      (hk : loads[k]? = some (dst, src)) :
      ReaderAccess s { s with
        reader := .copying (overwrite buffer dst (s.ring.load src 1)) held
          ⟨loads.eraseIdx k, pread, readSize⟩ }
  | store {buffer : List UInt8} {held pread readSize : ℕ}
      (h : s.reader = .copying buffer held ⟨[], pread, readSize⟩) :
      ReaderAccess s { s with
        ring := if readSize > 0 then { s.ring with readPtr := pread } else s.ring
        reader := .idle
        log := s.log ++ [.read buffer.length held (buffer.take readSize)] }

theorem readerAccess_of_readerStep {s t : RingCalls} {k : ℕ} (h : readerStep s k = some t) :
    ReaderAccess s t := by
  rw [readerStep] at h
  split at h
  next => cases h
  next buffer held hr =>
    cases h
    exact .loadRead hr
  next buffer held pread hr =>
    cases h
    exact .loadWrite hr
  next buffer held pread readSize hr =>
    cases h
    exact .store hr
  next buffer held loads pread readSize hne hr =>
    obtain ⟨⟨dst, src⟩, hk, rfl⟩ := Option.map_eq_some_iff.mp h
    exact .copy hr hk

/-! ### The log -/

@[simp] theorem acceptedBytes_append (log log' : List RingEvent) :
    acceptedBytes (log ++ log') = acceptedBytes log ++ acceptedBytes log' := by
  simp [acceptedBytes]

@[simp] theorem deliveredBytes_append (log log' : List RingEvent) :
    deliveredBytes (log ++ log') = deliveredBytes log ++ deliveredBytes log' := by
  simp [deliveredBytes]

@[simp] theorem rejectedBytes_append (log log' : List RingEvent) :
    rejectedBytes (log ++ log') = rejectedBytes log + rejectedBytes log' := by
  simp [rejectedBytes]

/-- A write is rejected only if the bytes held when it began and its own leave no byte unused; a
read that is not refused a copy returns what was held when it began, up to the size asked for. -/
def RingEvent.Meets (size : ℕ) : RingEvent → Prop
  | .accepted buffer _ => buffer.length ≤ size
  | .rejected buffer held => size ≤ held + buffer.length
  | .read n held out => min n held ≤ out.length ∧ out.length ≤ n

/-! ### The invariant -/

/-- What the call of the writer knows, with the ring and the positions `rd` and `wr` of the two
pointers: it may have an old read pointer, that of the position `old`. -/
def WriterKnows (beginPtr size rd wr : ℕ) (ring : Ringbuffer) : WriteCall → Prop
  | .idle => True
  | .entered buffer held =>
      buffer ≠ [] ∧ beginPtr + size + buffer.length < 2 ^ 64 ∧ wr - rd ≤ held
  | .loaded buffer held pread =>
      buffer ≠ [] ∧ beginPtr + size + buffer.length < 2 ^ 64 ∧
        ∃ old, old ≤ rd ∧ (old < rd ∨ pread = ring.readPtr) ∧ wr - old ≤ held ∧
          Stand beginPtr size pread ring.writePtr old wr
  | .copying buffer held plan =>
      plan = ⟨[], ring.writePtr, buffer.length⟩ ∧ buffer ≠ [] ∧ size ≤ held + buffer.length ∨
        ∃ old pread, old ≤ rd ∧ (old < rd ∨ pread = ring.readPtr) ∧
          Stand beginPtr size pread ring.writePtr old wr ∧
          Stand beginPtr size pread plan.pwrite old (wr + buffer.length) ∧
          plan.skipCount = 0 ∧
          (∀ e ∈ plan.stores,
            ∃ i byte, buffer[i]? = some byte ∧ e = (beginPtr + (wr + i) % size, byte)) ∧
          ∀ i byte, buffer[i]? = some byte → (beginPtr + (wr + i) % size, byte) ∈ plan.stores ∨
            ring.buffer[(wr + i) % size]? = some byte
  | .skipping buffer held skipCount => skipCount = buffer.length ∧ size ≤ held + buffer.length

/-- What the call of the reader knows, with the bytes written so far: it may have an old write
pointer, that of the position `old`. -/
def ReaderKnows (beginPtr size rd : ℕ) (stream : List UInt8) (ring : Ringbuffer) :
    ReadCall → Prop
  | .idle => True
  | .entered buffer held =>
      buffer ≠ [] ∧ beginPtr + size + buffer.length < 2 ^ 64 ∧ held ≤ stream.length - rd
  | .loaded buffer held pread =>
      buffer ≠ [] ∧ beginPtr + size + buffer.length < 2 ^ 64 ∧ held ≤ stream.length - rd ∧
        pread = ring.readPtr
  | .copying buffer held plan =>
      ∃ old pwrite, old ≤ stream.length ∧ Stand beginPtr size ring.readPtr pwrite rd old ∧
        Stand beginPtr size plan.pread pwrite (rd + plan.readSize) old ∧
        min buffer.length held ≤ plan.readSize ∧ plan.readSize ≤ buffer.length ∧
        (∀ e ∈ plan.loads,
          ∃ i, i < plan.readSize ∧ e = (i, beginPtr + (rd + i) % size)) ∧
        ∀ i, i < plan.readSize → (i, beginPtr + (rd + i) % size) ∈ plan.loads ∨
          buffer[i]? = stream[rd + i]?

/-- The ring holds the bytes accepted and not delivered, and the two calls know what they need. -/
structure RingInv (beginPtr size : ℕ) (s : RingCalls) : Prop where
  beginPtr_eq : s.ring.beginPtr = beginPtr
  endPtr_eq : s.ring.endPtr = beginPtr + size
  length_buffer : s.ring.buffer.length = size
  bufferSize_eq : s.ring.bufferSize = size
  stand : Stand beginPtr size s.ring.readPtr s.ring.writePtr
    (deliveredBytes s.log).length (acceptedBytes s.log).length
  delivered : deliveredBytes s.log <+: acceptedBytes s.log
  holds : Holds size s.ring.buffer (acceptedBytes s.log)
    (deliveredBytes s.log).length (acceptedBytes s.log).length
  skipCount : s.ring.skipCount = rejectedBytes s.log % 2 ^ 64
  meets : ∀ e ∈ s.log, e.Meets size
  writer : WriterKnows beginPtr size (deliveredBytes s.log).length (acceptedBytes s.log).length
    s.ring s.writer
  reader : ReaderKnows beginPtr size (deliveredBytes s.log).length (acceptedBytes s.log)
    s.ring s.reader

/-! ### What the other side's accesses change -/

section Other

variable {beginPtr size rd wr : ℕ} {ring : Ringbuffer} {stream : List UInt8}

/-- The reader moves on to the position `rd'`. -/
theorem WriterKnows.reader_moves {c : WriteCall} (h : WriterKnows beginPtr size rd wr ring c)
    {rd' : ℕ} (hrd : rd < rd') (pread : ℕ) :
    WriterKnows beginPtr size rd' wr { ring with readPtr := pread } c := by
  cases c with
  | idle => trivial
  | entered buffer held => exact ⟨h.1, h.2.1, by have := h.2.2; omega⟩
  | loaded buffer held pread =>
      obtain ⟨hne, hlt, old, hold, -, hheld, hstand⟩ := h
      exact ⟨hne, hlt, old, by omega, .inl (by omega), hheld, hstand⟩
  | copying buffer held plan =>
      rcases h with h | ⟨old, pread, hold, -, h⟩
      · exact .inl h
      · exact .inr ⟨old, pread, by omega, .inl (by omega), h⟩
  | skipping buffer held skipCount => exact h

/-- The writer publishes `data`. -/
theorem ReaderKnows.writer_publishes {c : ReadCall} (h : ReaderKnows beginPtr size rd stream ring c)
    (data : List UInt8) (pwrite : ℕ) :
    ReaderKnows beginPtr size rd (stream ++ data) { ring with writePtr := pwrite } c := by
  have hlen : stream.length ≤ (stream ++ data).length := by simp
  cases c with
  | idle => trivial
  | entered buffer held => exact ⟨h.1, h.2.1, by have := h.2.2; omega⟩
  | loaded buffer held pread => exact ⟨h.1, h.2.1, by have := h.2.2.1; omega, h.2.2.2⟩
  | copying buffer held plan =>
      obtain ⟨old, pwrite', hold, hstand, hstand', hmin, hmax, hloads, hdone⟩ := h
      refine ⟨old, pwrite', by omega, hstand, hstand', hmin, hmax, hloads, ?_⟩
      intro i hi
      have := hstand'.between.le
      rcases hdone i hi with hmem | heq
      · exact .inl hmem
      · exact .inr (by rw [heq, List.getElem?_append_left (by omega)])

/-- What the reader knows depends on the read pointer only. -/
theorem ReaderKnows.of_readPtr_eq {c : ReadCall} (h : ReaderKnows beginPtr size rd stream ring c)
    {ring' : Ringbuffer} (heq : ring'.readPtr = ring.readPtr) :
    ReaderKnows beginPtr size rd stream ring' c := by
  cases c with
  | idle | entered => exact h
  | loaded buffer held pread => exact ⟨h.1, h.2.1, h.2.2.1, h.2.2.2.trans heq.symm⟩
  | copying buffer held plan =>
      simp only [ReaderKnows, heq]
      exact h

end Other

/-! ### The steps -/

section Steps

variable {beginPtr size : ℕ} {s t : RingCalls}

theorem RingInv.usedSize (h : RingInv beginPtr size s) (hlt : beginPtr + size < 2 ^ 64) :
    ringbufferGetUsedSize s.ring = (acceptedBytes s.log).length - (deliveredBytes s.log).length := by
  have hread := h.stand.read_le
  have hread' := h.stand.begin_le_read
  have hwrite := h.stand.write_le
  have hwrite' := h.stand.begin_le_write
  rw [h.stand.sub_eq, ringbufferGetUsedSize, h.beginPtr_eq, h.endPtr_eq]
  by_cases hle : s.ring.readPtr ≤ s.ring.writePtr
  · rw [if_pos hle, if_pos hle, sizeSub_of_le hle (by omega)]
  · rw [if_neg hle, if_neg hle, sizeSub_of_le hwrite' (by omega), sizeSub_of_le hread (by omega),
      ptrAdd_of_lt (by omega), Nat.add_comm]

/-- The cells of the positions that are held, after a store to one behind them. -/
theorem RingInv.holds_store (h : RingInv beginPtr size s) {old i : ℕ} {byte : UInt8}
    (hold : old ≤ (deliveredBytes s.log).length)
    (hi : (acceptedBytes s.log).length + i < old + size) :
    Holds size (s.ring.store (beginPtr + ((acceptedBytes s.log).length + i) % size) [byte]).buffer
      (acceptedBytes s.log) (deliveredBytes s.log).length (acceptedBytes s.log).length := by
  apply h.holds.of_eq_off ((acceptedBytes s.log).length + i) (by omega) (by omega)
  intro j hj
  rw [Ringbuffer.store, h.beginPtr_eq, Nat.add_sub_cancel_left, getElem?_overwrite, if_neg]
  simp only [List.length_singleton]
  omega

/-- What is left to copy is still in the list, or it has just been copied. -/
theorem mem_eraseIdx_or_eq {α : Type*} {xs : List α} {k : ℕ} {x y : α} (hk : xs[k]? = some x)
    (hy : y ∈ xs) : y ∈ xs.eraseIdx k ∨ y = x := by
  obtain ⟨m, hm⟩ := List.mem_iff_getElem?.mp hy
  by_cases hmk : m = k
  · right
    rw [hmk, hk] at hm
    exact (Option.some.inj hm).symm
  · left
    exact List.mem_eraseIdx_iff_getElem?.mpr ⟨m, hmk, hm⟩

theorem RingInv.writer_copies (h : RingInv beginPtr size s) (hsize : 1 ≤ size)
    {buffer : List UInt8} {held pwrite skipCount : ℕ} {stores : List (ℕ × UInt8)} {k dst : ℕ}
    {byte : UInt8} (hw : s.writer = .copying buffer held ⟨stores, pwrite, skipCount⟩)
    (hk : stores[k]? = some (dst, byte)) :
    RingInv beginPtr size { s with
      ring := s.ring.store dst [byte]
      writer := .copying buffer held ⟨stores.eraseIdx k, pwrite, skipCount⟩ } := by
  have hwriter := h.writer
  rw [hw] at hwriter
  rcases hwriter with ⟨hplan, -, -⟩ | ⟨old, pread, hold, hread, hstand, hnew, hskip, hstores, hdone⟩
  · obtain rfl : stores = [] := congrArg WritePlan.stores hplan
    cases hk
  dsimp only at hnew hskip hstores hdone
  obtain ⟨i, byte', hbyte, he⟩ := hstores _ (List.mem_of_getElem? hk)
  obtain ⟨rfl, rfl⟩ := Prod.mk.inj he
  have hi := (List.getElem?_eq_some_iff.mp hbyte).1
  have hroom := hnew.between.le_add
  have hle := hstand.between.le
  refine { h with
    length_buffer := by rw [← h.length_buffer]; exact length_overwrite _ _ _
    holds := h.holds_store hold (by omega)
    writer := .inr ⟨old, pread, hold, hread, hstand, hnew, hskip, ?_, ?_⟩
    reader := h.reader.of_readPtr_eq rfl }
  · exact fun e he => hstores e (List.mem_of_mem_eraseIdx he)
  · intro j byte' hbyte'
    have hj := (List.getElem?_eq_some_iff.mp hbyte').1
    have hcell : ((acceptedBytes s.log).length + i) % size < s.ring.buffer.length := by
      rw [h.length_buffer]
      exact Nat.mod_lt _ hsize
    simp only [Ringbuffer.store, h.beginPtr_eq, Nat.add_sub_cancel_left, getElem?_overwrite,
      List.length_singleton]
    by_cases hij : j = i
    · obtain rfl := hij
      obtain rfl := Option.some.inj (hbyte.symm.trans hbyte')
      right
      rw [if_pos (by omega), Nat.sub_self]
      rfl
    · have hne : ((acceptedBytes s.log).length + j) % size ≠
          ((acceptedBytes s.log).length + i) % size := by
        intro heq
        have := eq_of_mod_eq (acceptedBytes s.log).length heq (by omega) (by omega) (by omega)
          (by omega)
        omega
      rcases hdone j byte' hbyte' with hmem | hval
      · refine .inl ((mem_eraseIdx_or_eq hk hmem).resolve_right fun heq => ?_)
        have := (Prod.mk.inj heq).1
        omega
      · right
        rw [if_neg (by omega), hval]

theorem RingInv.meets_concat (h : RingInv beginPtr size s) {e : RingEvent} (he : e.Meets size) :
    ∀ e' ∈ s.log ++ [e], e'.Meets size := by
  intro e' he'
  rcases List.mem_append.mp he' with he' | he'
  · exact h.meets e' he'
  · exact List.mem_singleton.mp he' ▸ he

/-- A call returns that has moved no byte. -/
theorem RingInv.returns (h : RingInv beginPtr size s) {e : RingEvent}
    (haccepted : acceptedBytes (s.log ++ [e]) = acceptedBytes s.log)
    (hdelivered : deliveredBytes (s.log ++ [e]) = deliveredBytes s.log) (he : e.Meets size)
    {skipCount : ℕ} (hskip : skipCount = rejectedBytes (s.log ++ [e]) % 2 ^ 64) (full : Bool)
    {writer : WriteCall} (hw : writer = s.writer ∨ writer = .idle)
    {reader : ReadCall} (hr : reader = s.reader ∨ reader = .idle) :
    RingInv beginPtr size
      ⟨{ s.ring with skipCount := skipCount, logWriteBufferIsFull := full }, writer, reader,
        s.log ++ [e]⟩ := by
  constructor
  case beginPtr_eq => exact h.beginPtr_eq
  case endPtr_eq => exact h.endPtr_eq
  case length_buffer => exact h.length_buffer
  case bufferSize_eq => exact h.bufferSize_eq
  case skipCount => exact hskip
  case meets => exact h.meets_concat he
  all_goals rw [haccepted, hdelivered]
  case stand => exact h.stand
  case delivered => exact h.delivered
  case holds => exact h.holds
  case writer =>
    rcases hw with rfl | rfl
    · have := h.writer
      generalize s.writer = c at this ⊢
      cases c <;> exact this
    · trivial
  case reader =>
    rcases hr with rfl | rfl
    · exact h.reader.of_readPtr_eq rfl
    · trivial

/-- The store of the write pointer makes the bytes part of what is held. -/
theorem RingInv.writer_publishes (h : RingInv beginPtr size s) {buffer : List UInt8}
    {held pwrite : ℕ} (hw : s.writer = .copying buffer held ⟨[], pwrite, 0⟩) :
    RingInv beginPtr size { s with
      ring := { s.ring with writePtr := pwrite }
      writer := .idle
      log := s.log ++ [.accepted buffer held] } := by
  have hwriter := h.writer
  rw [hw] at hwriter
  rcases hwriter with ⟨hplan, hne, -⟩ | ⟨old, pread, hold, hread, hstand, hnew, -, -, hdone⟩
  · have hlen : 0 = buffer.length := congrArg WritePlan.skipCount hplan
    exact absurd (List.length_eq_zero_iff.mp hlen.symm) hne
  dsimp only at hnew hdone
  have haccepted : acceptedBytes (s.log ++ [.accepted buffer held]) =
      acceptedBytes s.log ++ buffer := by simp [acceptedBytes]
  have hdelivered : deliveredBytes (s.log ++ [.accepted buffer held]) = deliveredBytes s.log := by
    simp [deliveredBytes]
  have hrejected : rejectedBytes (s.log ++ [.accepted buffer held]) = rejectedBytes s.log := by
    simp [rejectedBytes]
  have hlen : (acceptedBytes s.log ++ buffer).length =
      (acceptedBytes s.log).length + buffer.length := List.length_append
  constructor
  case beginPtr_eq => exact h.beginPtr_eq
  case endPtr_eq => exact h.endPtr_eq
  case length_buffer => exact h.length_buffer
  case bufferSize_eq => exact h.bufferSize_eq
  case stand =>
    rw [haccepted, hdelivered, hlen]
    exact h.stand.writer hstand hnew hread hold (by omega)
  case delivered =>
    rw [haccepted, hdelivered]
    exact h.delivered.trans (List.prefix_append _ _)
  case holds =>
    rw [haccepted, hdelivered, hlen]
    intro pos hlo hhi
    by_cases hpos : pos < (acceptedBytes s.log).length
    · exact h.holds.append (Nat.le_refl _) buffer pos hlo hpos
    · obtain ⟨i, rfl⟩ := Nat.exists_eq_add_of_le (Nat.le_of_not_lt hpos)
      have hi : i < buffer.length := by omega
      rw [List.getElem?_append_right (by omega), Nat.add_sub_cancel_left,
        List.getElem?_eq_getElem hi]
      exact (hdone i _ (List.getElem?_eq_getElem hi)).resolve_left (by simp)
  case skipCount =>
    rw [hrejected]
    exact h.skipCount
  case meets =>
    have := hnew.between.le_add
    have := hstand.between.le
    exact h.meets_concat (by simp only [RingEvent.Meets]; omega)
  case writer => trivial
  case reader =>
    rw [haccepted, hdelivered]
    exact h.reader.writer_publishes buffer pwrite

theorem RingInv.writer_rejects (h : RingInv beginPtr size s) {buffer : List UInt8}
    {held skipCount : ℕ} (hw : s.writer = .skipping buffer held skipCount) :
    RingInv beginPtr size { s with
      ring := { s.ring with
        skipCount := (s.ring.skipCount + skipCount) % 2 ^ 64
        logWriteBufferIsFull := false }
      writer := .idle
      log := s.log ++ [.rejected buffer held] } := by
  have hwriter := h.writer
  rw [hw] at hwriter
  obtain ⟨rfl, hfull⟩ := hwriter
  have hmeets : (RingEvent.rejected buffer held).Meets size := hfull
  refine h.returns ?_ ?_ hmeets ?_ false (.inr rfl) (.inl rfl)
  · simp [acceptedBytes]
  · simp [deliveredBytes]
  · rw [h.skipCount, Nat.mod_add_mod]
    simp [rejectedBytes]

theorem RingInv.writerAccess (h : RingInv beginPtr size s) (hsize : 1 ≤ size)
    (hstep : WriterAccess s t) : RingInv beginPtr size t := by
  have hwriter := h.writer
  cases hstep with
  | loadRead hw =>
      rw [hw] at hwriter
      obtain ⟨hne, hlt, hheld⟩ := hwriter
      exact { h with writer := ⟨hne, hlt, _, Nat.le_refl _, .inr rfl, hheld, h.stand⟩ }
  | @loadWrite buffer held pread hw =>
      rw [hw] at hwriter
      obtain ⟨hne, hlt, old, hold, hread, hheld, hstand⟩ := hwriter
      refine { h with writer := ?_ }
      rw [h.beginPtr_eq, h.endPtr_eq]
      rcases writePlan_spec hstand hne hlt with hacc | hrej
      · refine .inr ⟨old, pread, hold, hread, hstand, hacc.stand, hacc.skipCount,
          fun e he => (hacc.stores e).mp he, ?_⟩
        intro i byte hbyte
        exact .inl ((hacc.stores _).mpr ⟨i, byte, hbyte, rfl⟩)
      · have hfull := hrej.full
        exact .inl ⟨hrej.plan_eq, hne, by omega⟩
  | copy hw hk => exact h.writer_copies hsize hw hk
  | store hw => exact h.writer_publishes hw
  | @storeSkipping buffer held pwrite skipCount hw hpos =>
      rw [hw] at hwriter
      rcases hwriter with ⟨hplan, -, hfull⟩ | ⟨_, _, _, _, _, _, hskip, _⟩
      · -- the write pointer is stored back as it was
        cases hplan
        exact { h with writer := ⟨rfl, hfull⟩ }
      · exact absurd hskip (Nat.ne_of_gt hpos)
  | skip hw => exact h.writer_rejects hw

/-- A byte is copied from the cell of its position. -/
theorem RingInv.reader_copies (h : RingInv beginPtr size s) {buffer : List UInt8}
    {held pread readSize : ℕ} {loads : List (ℕ × ℕ)} {k dst src : ℕ}
    (hr : s.reader = .copying buffer held ⟨loads, pread, readSize⟩)
    (hk : loads[k]? = some (dst, src)) :
    RingInv beginPtr size { s with
      reader := .copying (overwrite buffer dst (s.ring.load src 1)) held
        ⟨loads.eraseIdx k, pread, readSize⟩ } := by
  have hreader := h.reader
  rw [hr] at hreader
  obtain ⟨old, pwrite, hold, hstand, hnew, hmin, hmax, hloads, hdone⟩ := hreader
  dsimp only at hnew hmin hmax hloads hdone
  obtain ⟨i, hi, he⟩ := hloads _ (List.mem_of_getElem? hk)
  obtain ⟨rfl, rfl⟩ := Prod.mk.inj he
  have hle := hnew.between.le
  have hpos : (deliveredBytes s.log).length + dst < (acceptedBytes s.log).length := by omega
  have hcell := h.holds ((deliveredBytes s.log).length + dst) (by omega) hpos
  rw [List.getElem?_eq_getElem hpos] at hcell
  obtain ⟨hlt, hcell⟩ := List.getElem?_eq_some_iff.mp hcell
  have hload : s.ring.load (beginPtr + ((deliveredBytes s.log).length + dst) % size) 1 =
      [(acceptedBytes s.log)[(deliveredBytes s.log).length + dst]] := by
    rw [Ringbuffer.load, h.beginPtr_eq, Nat.add_sub_cancel_left, slice_eq_cons hlt,
      slice_zero_length, hcell]
  refine { h with reader := ⟨old, pwrite, hold, hstand, hnew, ?_, ?_, ?_, ?_⟩ }
  · rw [length_overwrite]
    exact hmin
  · rw [length_overwrite]
    exact hmax
  · exact fun e he => hloads e (List.mem_of_mem_eraseIdx he)
  · intro j hj
    rw [hload, getElem?_overwrite, List.length_singleton]
    by_cases hij : j = dst
    · right
      rw [hij, if_pos (by omega), Nat.sub_self, List.getElem?_eq_getElem hpos]
      rfl
    · rcases hdone j hj with hmem | hval
      · exact .inl ((mem_eraseIdx_or_eq hk hmem).resolve_right fun heq =>
          hij (Prod.mk.inj heq).1)
      · right
        rw [if_neg (by omega), hval]

/-- The bytes that a read returns are the next ones of the stream. -/
theorem RingInv.take_eq (h : RingInv beginPtr size s) {buffer : List UInt8} {held pread n : ℕ}
    (hr : s.reader = .copying buffer held ⟨[], pread, n⟩) :
    buffer.take n = slice (acceptedBytes s.log) (deliveredBytes s.log).length n := by
  have hreader := h.reader
  rw [hr] at hreader
  obtain ⟨old, pwrite, hold, hstand, hnew, hmin, hmax, -, hdone⟩ := hreader
  apply List.ext_getElem?
  intro i
  rw [getElem?_slice, List.getElem?_take]
  by_cases hi : i < n
  · rw [if_pos hi, if_pos hi]
    exact (hdone i hi).resolve_left (by simp)
  · rw [if_neg hi, if_neg hi]

theorem RingInv.reader_returns (h : RingInv beginPtr size s) {buffer : List UInt8}
    {held pread readSize : ℕ} (hr : s.reader = .copying buffer held ⟨[], pread, readSize⟩) :
    RingInv beginPtr size { s with
      ring := if readSize > 0 then { s.ring with readPtr := pread } else s.ring
      reader := .idle
      log := s.log ++ [.read buffer.length held (buffer.take readSize)] } := by
  have hout := h.take_eq hr
  have hreader := h.reader
  rw [hr] at hreader
  obtain ⟨old, pwrite, hold, hstand, hnew, hmin, hmax, -, -⟩ := hreader
  dsimp only at hnew hmin hmax
  have hlen : (buffer.take readSize).length = readSize := by
    rw [List.length_take]
    omega
  have hmeets : (RingEvent.read buffer.length held (buffer.take readSize)).Meets size := by
    simp only [RingEvent.Meets, hlen]
    exact ⟨hmin, hmax⟩
  have haccepted : acceptedBytes (s.log ++ [.read buffer.length held (buffer.take readSize)]) =
      acceptedBytes s.log := by simp [acceptedBytes]
  have hdelivered : deliveredBytes (s.log ++ [.read buffer.length held (buffer.take readSize)]) =
      deliveredBytes s.log ++ buffer.take readSize := by simp [deliveredBytes]
  have hrejected : rejectedBytes (s.log ++ [.read buffer.length held (buffer.take readSize)]) =
      rejectedBytes s.log := by simp [rejectedBytes]
  by_cases hpos : readSize > 0
  · rw [if_pos hpos]
    have hmoved : (deliveredBytes s.log ++ buffer.take readSize).length =
        (deliveredBytes s.log).length + readSize := by rw [List.length_append, hlen]
    constructor
    case beginPtr_eq => exact h.beginPtr_eq
    case endPtr_eq => exact h.endPtr_eq
    case length_buffer => exact h.length_buffer
    case bufferSize_eq => exact h.bufferSize_eq
    case skipCount => exact hrejected.symm ▸ h.skipCount
    case meets => exact h.meets_concat hmeets
    case reader => trivial
    case delivered =>
      have htake := List.prefix_iff_eq_take.mp h.delivered
      rw [haccepted, hdelivered, hout, List.prefix_iff_eq_take, List.length_append, ← hout, hlen,
        hout, slice, List.take_add, ← htake]
    all_goals rw [haccepted, hdelivered, hmoved]
    case stand => exact h.stand.reader hstand hnew hold (by omega)
    case holds => exact h.holds.mono (Nat.le_add_right _ _) (Nat.le_refl _)
    case writer => exact h.writer.reader_moves (by omega) pread
  · obtain rfl : readSize = 0 := by omega
    rw [List.take_zero, List.append_nil] at hdelivered
    rw [if_neg hpos]
    exact h.returns haccepted hdelivered hmeets (hrejected.symm ▸ h.skipCount) _ (.inl rfl)
      (.inr rfl)

theorem RingInv.readerAccess (h : RingInv beginPtr size s) (hstep : ReaderAccess s t) :
    RingInv beginPtr size t := by
  have hreader := h.reader
  cases hstep with
  | loadRead hr =>
      rw [hr] at hreader
      obtain ⟨hne, hlt, hheld⟩ := hreader
      exact { h with reader := ⟨hne, hlt, hheld, rfl⟩ }
  | @loadWrite buffer held pread hr =>
      rw [hr] at hreader
      obtain ⟨hne, hlt, hheld, rfl⟩ := hreader
      have hplan := readPlan_spec h.stand (List.length_pos_iff.mpr hne) hlt
      have hsize := hplan.readSize
      refine { h with reader := ?_ }
      rw [h.beginPtr_eq, h.endPtr_eq]
      refine ⟨_, _, Nat.le_refl _, h.stand, hplan.stand, by omega, by omega,
        fun e he => (hplan.loads e).mp he, ?_⟩
      exact fun i hi => .inl ((hplan.loads _).mpr ⟨i, hi, rfl⟩)
  | copy hr hk => exact h.reader_copies hr hk
  | store hr => exact h.reader_returns hr

/-- No pointer sum of a call reaches beyond the address space. -/
def RingLabel.Legal (endPtr : ℕ) : RingLabel → Prop
  | .write buffer | .read buffer => endPtr + buffer.length < 2 ^ 64
  | _ => True

theorem RingInv.step (h : RingInv beginPtr size s) (hsize : 1 ≤ size)
    (hlt : beginPtr + size < 2 ^ 64) {l : RingLabel} (hlegal : l.Legal (beginPtr + size))
    (hstep : ringCallsStep s l = some t) : RingInv beginPtr size t := by
  cases l with
  | write buffer =>
      simp only [ringCallsStep, Option.ite_none_right_eq_some] at hstep
      obtain ⟨-, hstep⟩ := hstep
      split at hstep
      · cases hstep
        exact h
      · cases hstep
        exact { h with writer := ⟨‹_›, hlegal, Nat.le_of_eq (h.usedSize hlt).symm⟩ }
  | writer k => exact h.writerAccess hsize (writerAccess_of_writerStep hstep)
  | read buffer =>
      simp only [ringCallsStep, Option.ite_none_right_eq_some] at hstep
      obtain ⟨-, hstep⟩ := hstep
      split at hstep
      · cases hstep
        exact h
      · cases hstep
        exact { h with reader := ⟨‹_›, hlegal, Nat.le_of_eq (h.usedSize hlt)⟩ }
  | reader k => exact h.readerAccess (readerAccess_of_readerStep hstep)
  | fault =>
      simp only [ringCallsStep] at hstep
      split at hstep
      · cases hstep
        exact { h with reader := trivial }
      · cases hstep

theorem ringInv_start {buffer size : ℕ} (hlt : buffer + size < 2 ^ 64) :
    RingInv buffer size (RingCalls.start buffer size) where
  beginPtr_eq := rfl
  endPtr_eq := ptrAdd_of_lt hlt
  length_buffer := List.length_replicate
  bufferSize_eq := rfl
  stand := ⟨Nat.le_refl _, Nat.le_refl _, by
    simpa [RingCalls.start, ringbufferInit, deliveredBytes, acceptedBytes] using
      between_zero size⟩
  delivered := List.prefix_rfl
  holds pos _ hpos := absurd hpos (Nat.not_lt_zero _)
  skipCount := rfl
  meets := by simp [RingCalls.start]
  writer := trivial
  reader := trivial

/-- The bytes held are those accepted and not delivered. -/
theorem RingInv.queue_eq (h : RingInv beginPtr size s) :
    s.ring.queue = (acceptedBytes s.log).drop (deliveredBytes s.log).length := by
  have hle := h.stand.between.le
  obtain ⟨hread, hwrite, hr, hw, base, hdvd, hrd, hwr⟩ := h.stand
  have hdrop : (acceptedBytes s.log).drop (deliveredBytes s.log).length =
      slice (acceptedBytes s.log) (deliveredBytes s.log).length
        ((acceptedBytes s.log).length - (deliveredBytes s.log).length) := by
    rw [slice, List.take_of_length_le (Nat.le_of_eq List.length_drop)]
  rw [hdrop]
  by_cases hlevel : s.ring.readPtr ≤ s.ring.writePtr
  · rw [Ringbuffer.queue_of_le hlevel, Ringbuffer.load, h.beginPtr_eq,
      h.holds.slice_eq hdvd (by omega) (by omega) (by omega), ← hrd]
    congr 1
    omega
  · have hdvd' : size ∣ base + size := Nat.dvd_add hdvd (Nat.dvd_refl _)
    have hsum : base + size + 0 =
        (deliveredBytes s.log).length + (beginPtr + size - s.ring.readPtr) := by omega
    rw [Ringbuffer.queue_of_lt (by omega), Ringbuffer.load, Ringbuffer.load, h.beginPtr_eq,
      h.endPtr_eq, h.holds.slice_eq hdvd (by omega) (by omega) (by omega), ← hrd, Nat.sub_self,
      h.holds.slice_eq hdvd' (by omega) (by omega) (by omega), hsum, slice_append_slice]
    congr 1
    omega

end Steps

/-- What an observer of the two sides can rely on. -/
structure RingCallsSpec (size : ℕ) (s : RingCalls) : Prop where
  conserved : acceptedBytes s.log = deliveredBytes s.log ++ s.ring.queue
  bounded : s.ring.queue.length ≤ size
  skipCount : s.ring.skipCount = rejectedBytes s.log % 2 ^ 64
  meets : ∀ e ∈ s.log, e.Meets size

theorem RingInv.spec {beginPtr size : ℕ} {s : RingCalls} (h : RingInv beginPtr size s) :
    RingCallsSpec size s where
  conserved := by
    have htake := List.prefix_iff_eq_take.mp h.delivered
    calc acceptedBytes s.log
      _ = (acceptedBytes s.log).take (deliveredBytes s.log).length ++
            (acceptedBytes s.log).drop (deliveredBytes s.log).length :=
          (List.take_append_drop _ _).symm
      _ = deliveredBytes s.log ++ s.ring.queue := by rw [← htake, h.queue_eq]
  bounded := by
    have := h.stand.between.le_add
    rw [h.queue_eq, List.length_drop]
    omega
  skipCount := h.skipCount
  meets := h.meets

theorem ringInv_of_exec {buffer size : ℕ} (hsize : 1 ≤ size) (hlt : buffer + size < 2 ^ 64)
    {ls : List RingLabel} (hlegal : ∀ l ∈ ls, l.Legal (buffer + size)) {s t : RingCalls}
    (hs : RingInv buffer size s) (h : exec ringCallsStep s ls = some t) : RingInv buffer size t :=
  exec_invariant_of_allSteps (I := RingInv buffer size)
    (C := fun _ l => l.Legal (buffer + size)) (fun _ _ _ hs hl hstep => hs.step hsize hlt hl hstep)
    hs (allSteps_of_forall_mem (fun l hl _ => hlegal l hl) _) h

/-- A writer and a reader that overlap in any way neither lose nor repeat nor reorder a byte. -/
theorem ringCalls_spec {buffer size : ℕ} (hsize : 1 ≤ size) (hlt : buffer + size < 2 ^ 64)
    {ls : List RingLabel} (hlegal : ∀ l ∈ ls, l.Legal (buffer + size)) {t : RingCalls}
    (h : exec ringCallsStep (RingCalls.start buffer size) ls = some t) : RingCallsSpec size t :=
  (ringInv_of_exec hsize hlt hlegal (ringInv_start hlt) h).spec

/-- A write that goes around the end while a read is going on, its bytes in no order. -/
theorem ringCalls_spec_wrap :
    ∃ t, exec ringCallsStep (RingCalls.start 4096 4)
        [.write [1, 2, 3], .writer 0, .writer 0, .writer 2, .read [0, 0], .writer 0, .writer 0,
          .writer 0, .reader 0, .reader 0, .reader 1, .write [4, 5], .writer 0, .reader 0,
          .reader 0, .writer 0, .writer 0, .writer 0] = some t ∧
      t.log.length = 3 ∧ RingCallsSpec 4 t := by
  refine ⟨_, rfl, rfl, ?_⟩
  have hlegal : ∀ l ∈ ([.write [1, 2, 3], .writer 0, .writer 0, .writer 2, .read [0, 0],
      .writer 0, .writer 0, .writer 0, .reader 0, .reader 0, .reader 1, .write [4, 5], .writer 0,
      .reader 0, .reader 0, .writer 0, .writer 0, .writer 0] : List RingLabel),
      l.Legal (4096 + 4) := by simp [RingLabel.Legal]
  exact ringCalls_spec (by decide) (by decide) hlegal rfl

end AptUsbtrx
