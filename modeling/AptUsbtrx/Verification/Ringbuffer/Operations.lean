import AptUsbtrx.Model.Ringbuffer

/-! # Operations of the ring buffer

The ring holds the bytes from the read pointer up to the write pointer, going around
the end of the buffer when the write pointer is below. Each operation is described by
its effect on these bytes. -/

namespace AptUsbtrx

open Memory

namespace Ringbuffer

/-- The pointers are inside the buffer. The read and the write pointer may both rest on
the end; a wrapped write pointer is never at the beginning. -/
structure Wf (ring : Ringbuffer) : Prop where
  length_buffer : ring.buffer.length = ring.bufferSize
  bufferSize_pos : 1 ≤ ring.bufferSize
  end_eq : ring.endPtr = ring.beginPtr + ring.bufferSize
  end_lt : ring.endPtr < 2 ^ 64
  begin_le_read : ring.beginPtr ≤ ring.readPtr
  read_le_end : ring.readPtr ≤ ring.endPtr
  begin_le_write : ring.beginPtr ≤ ring.writePtr
  write_le_end : ring.writePtr ≤ ring.endPtr
  begin_lt_write : ring.writePtr < ring.readPtr → ring.beginPtr < ring.writePtr

/-- The bytes held, oldest first. -/
def queue (ring : Ringbuffer) : List UInt8 :=
  if ring.readPtr ≤ ring.writePtr then ring.load ring.readPtr (ring.writePtr - ring.readPtr)
  else ring.load ring.readPtr (ring.endPtr - ring.readPtr) ++
    ring.load ring.beginPtr (ring.writePtr - ring.beginPtr)

/-- A block of `size` bytes can be stored. -/
def Fits (ring : Ringbuffer) (size : ℕ) : Prop :=
  ring.queue.length + size < ring.bufferSize ∨
    ring.readPtr ≤ ring.writePtr ∧ ring.writePtr + size ≤ ring.endPtr

variable {ring : Ringbuffer}

theorem Wf.writePtr_add_lt (hw : ring.Wf) {n : ℕ} (h : ring.endPtr + n < 2 ^ 64) :
    ring.writePtr + n < 2 ^ 64 :=
  Nat.lt_of_le_of_lt (Nat.add_le_add_right hw.write_le_end n) h

theorem queue_of_le (h : ring.readPtr ≤ ring.writePtr) :
    ring.queue = ring.load ring.readPtr (ring.writePtr - ring.readPtr) := if_pos h

theorem queue_of_lt (h : ring.writePtr < ring.readPtr) :
    ring.queue = ring.load ring.readPtr (ring.endPtr - ring.readPtr) ++
      ring.load ring.beginPtr (ring.writePtr - ring.beginPtr) := if_neg (by omega)

theorem length_load {p n : ℕ} (hw : ring.Wf) (hlo : ring.beginPtr ≤ p) (hhi : p + n ≤ ring.endPtr) :
    (ring.load p n).length = n := by
  have := hw.length_buffer
  have := hw.end_eq
  exact length_slice_of_le (by omega)

theorem load_append {p a b : ℕ} (hlo : ring.beginPtr ≤ p) :
    ring.load p a ++ ring.load (p + a) b = ring.load p (a + b) := by
  rw [load, load, load, Nat.sub_add_comm hlo, slice_append_slice]

theorem length_queue (hw : ring.Wf) :
    ring.queue.length =
      if ring.readPtr ≤ ring.writePtr then ring.writePtr - ring.readPtr
      else (ring.endPtr - ring.readPtr) + (ring.writePtr - ring.beginPtr) := by
  have := hw.begin_le_read
  have := hw.begin_le_write
  have := hw.read_le_end
  have := hw.write_le_end
  by_cases h : ring.readPtr ≤ ring.writePtr
  · rw [queue_of_le h, if_pos h, length_load hw (by omega) (by omega)]
  · rw [queue_of_lt (by omega), if_neg h, List.length_append, length_load hw (by omega) (by omega),
      length_load hw (by omega) (by omega)]

theorem length_queue_le (hw : ring.Wf) : ring.queue.length ≤ ring.bufferSize := by
  have := hw.begin_le_read
  have := hw.write_le_end
  have := hw.read_le_end
  have := hw.end_eq
  rw [length_queue hw]
  split <;> omega

/-- The ring is empty exactly when the two pointers are equal. -/
theorem queue_eq_nil_iff (hw : ring.Wf) : ring.queue = [] ↔ ring.readPtr = ring.writePtr := by
  have := hw.begin_lt_write
  rw [← List.length_eq_zero_iff, length_queue hw]
  split <;> omega

end Ringbuffer

/-! ### Initialisation, clearing and the sizes -/

section

variable {ring : Ringbuffer}

theorem wf_ringbufferInit {buffer size : ℕ} (hsize : 1 ≤ size) (hlt : buffer + size < 2 ^ 64) :
    (ringbufferInit buffer size).Wf where
  length_buffer := List.length_replicate
  bufferSize_pos := hsize
  end_eq := ptrAdd_of_lt hlt
  end_lt := Nat.mod_lt _ (by norm_num)
  begin_le_read := Nat.le_refl buffer
  read_le_end := by
    change buffer ≤ ptrAdd buffer size
    rw [ptrAdd_of_lt hlt]
    omega
  begin_le_write := Nat.le_refl buffer
  write_le_end := by
    change buffer ≤ ptrAdd buffer size
    rw [ptrAdd_of_lt hlt]
    omega
  begin_lt_write := fun h => absurd h (Nat.lt_irrefl buffer)

@[simp] theorem queue_ringbufferInit (buffer size : ℕ) :
    (ringbufferInit buffer size).queue = [] := by
  simp [Ringbuffer.queue, Ringbuffer.load, ringbufferInit]

theorem wf_ringbufferClear (hw : ring.Wf) : (ringbufferClear ring).Wf where
  length_buffer := hw.length_buffer
  bufferSize_pos := hw.bufferSize_pos
  end_eq := hw.end_eq
  end_lt := hw.end_lt
  begin_le_read := Nat.le_refl ring.beginPtr
  read_le_end := Nat.le_trans hw.begin_le_read hw.read_le_end
  begin_le_write := Nat.le_refl ring.beginPtr
  write_le_end := Nat.le_trans hw.begin_le_read hw.read_le_end
  begin_lt_write := fun h => absurd h (Nat.lt_irrefl ring.beginPtr)

@[simp] theorem queue_ringbufferClear (ring : Ringbuffer) : (ringbufferClear ring).queue = [] := by
  simp [Ringbuffer.queue, Ringbuffer.load, ringbufferClear]

theorem ringbufferIsEmpty_iff (hw : ring.Wf) : ringbufferIsEmpty ring = true ↔ ring.queue = [] := by
  rw [Ringbuffer.queue_eq_nil_iff hw, ringbufferIsEmpty, beq_iff_eq]

theorem ringbufferGetUsedSize_eq (hw : ring.Wf) :
    ringbufferGetUsedSize ring = ring.queue.length := by
  have := hw.begin_le_read
  have := hw.begin_le_write
  have := hw.read_le_end
  have := hw.write_le_end
  have := hw.end_lt
  rw [Ringbuffer.length_queue hw, ringbufferGetUsedSize]
  by_cases h : ring.readPtr ≤ ring.writePtr
  · rw [if_pos h, if_pos h, sizeSub_of_le h (by omega)]
  · rw [if_neg h, if_neg h, sizeSub_of_le (by omega) (by omega),
      sizeSub_of_le (by omega) (by omega), ptrAdd_of_lt (by omega), Nat.add_comm]

theorem ringbufferGetFreeSize_eq (hw : ring.Wf) :
    ringbufferGetFreeSize ring = ring.bufferSize - ring.queue.length := by
  have := Ringbuffer.length_queue_le hw
  have := hw.end_eq
  have := hw.end_lt
  rw [ringbufferGetFreeSize, ringbufferGetUsedSize_eq hw, sizeSub_of_le (by omega) (by omega)]

/-! ### Writing -/

/-- The effect of storing all of `data`. -/
structure Written (ring : Ringbuffer) (data : List UInt8) (ring' : Ringbuffer) : Prop where
  wf : ring'.Wf
  queue : ring'.queue = ring.queue ++ data
  readPtr : ring'.readPtr = ring.readPtr
  beginPtr : ring'.beginPtr = ring.beginPtr
  bufferSize : ring'.bufferSize = ring.bufferSize
  skipCount : ring'.skipCount = ring.skipCount

/-- The state after a write that did not fit. -/
def skipped (ring : Ringbuffer) (size : ℕ) : Ringbuffer :=
  { ring with
    skipCount := (ring.skipCount + size) % 2 ^ 64
    logWriteBufferIsFull := false }

theorem wf_skipped (hw : ring.Wf) (size : ℕ) : (skipped ring size).Wf :=
  ⟨hw.1, hw.2, hw.3, hw.4, hw.5, hw.6, hw.7, hw.8, hw.9⟩

@[simp] theorem queue_skipped (ring : Ringbuffer) (size : ℕ) :
    (skipped ring size).queue = ring.queue := rfl

theorem Written.trans {ring₁ ring₂ ring₃ : Ringbuffer} {xs ys : List UInt8}
    (h : Written ring₁ xs ring₂) (h' : Written ring₂ ys ring₃) :
    Written ring₁ (xs ++ ys) ring₃ where
  wf := h'.wf
  queue := by rw [h'.queue, h.queue, List.append_assoc]
  readPtr := h'.readPtr.trans h.readPtr
  beginPtr := h'.beginPtr.trans h.beginPtr
  bufferSize := h'.bufferSize.trans h.bufferSize
  skipCount := h'.skipCount.trans h.skipCount

/-- The ring with `data` copied to the offset `off` and the write pointer behind it. -/
def Ringbuffer.push (ring : Ringbuffer) (off : ℕ) (data : List UInt8) : Ringbuffer :=
  { ring with
    buffer := overwrite ring.buffer off data
    writePtr := ring.beginPtr + off + data.length }

/-- Storing a block right behind the write pointer. -/
theorem written_push (hw : ring.Wf) {data : List UInt8}
    (hend : ring.writePtr + data.length ≤ ring.endPtr)
    (hread : ring.writePtr < ring.readPtr → ring.writePtr + data.length < ring.readPtr) :
    Written ring data (ring.push (ring.writePtr - ring.beginPtr) data) := by
  have hlen := hw.length_buffer
  have heq := hw.end_eq
  have hbr := hw.begin_le_read
  have hbw := hw.begin_le_write
  have hre := hw.read_le_end
  have hwrap := hw.begin_lt_write
  generalize hoff : ring.writePtr - ring.beginPtr = off
  have hwrite : (ring.push off data).writePtr = ring.writePtr + data.length := by
    simp only [Ringbuffer.push]
    omega
  have hstored : slice (overwrite ring.buffer off data) off data.length = data :=
    slice_overwrite_self (by omega)
  refine ⟨⟨(length_overwrite _ _ _).trans hlen, hw.bufferSize_pos, heq, hw.end_lt, hbr, hre,
    ?_, ?_, ?_⟩, ?_, rfl, rfl, rfl, rfl⟩
  · rw [hwrite]
    exact Nat.le_trans hbw (Nat.le_add_right _ _)
  · rw [hwrite]
    exact hend
  · rw [hwrite]
    intro h
    exact Nat.lt_of_lt_of_le (hwrap (Nat.lt_of_le_of_lt (Nat.le_add_right _ _) h))
      (Nat.le_add_right _ _)
  · by_cases h : ring.readPtr ≤ ring.writePtr
    · have hkeep : slice (overwrite ring.buffer off data) (ring.readPtr - ring.beginPtr)
          (ring.writePtr - ring.readPtr) = ring.load ring.readPtr (ring.writePtr - ring.readPtr) :=
        slice_overwrite_of_disjoint (by omega)
      have hjoin : ring.readPtr - ring.beginPtr + (ring.writePtr - ring.readPtr) = off := by omega
      have hle : (ring.push off data).readPtr ≤ (ring.push off data).writePtr := by
        rw [hwrite]
        exact Nat.le_trans h (Nat.le_add_right _ _)
      rw [Ringbuffer.queue_of_le h, Ringbuffer.queue_of_le hle, hwrite]
      simp only [Ringbuffer.load, Ringbuffer.push] at hkeep ⊢
      rw [Nat.sub_add_comm h, ← slice_append_slice, hkeep, hjoin, hstored]
    · have hlast : slice (overwrite ring.buffer off data) (ring.readPtr - ring.beginPtr)
          (ring.endPtr - ring.readPtr) = ring.load ring.readPtr (ring.endPtr - ring.readPtr) :=
        slice_overwrite_of_disjoint (by omega)
      have hfirst : slice (overwrite ring.buffer off data) (ring.beginPtr - ring.beginPtr) off =
          ring.load ring.beginPtr off :=
        slice_overwrite_of_disjoint (by omega)
      have hjoin : ring.beginPtr - ring.beginPtr + off = off := by omega
      have hlt : (ring.push off data).writePtr < (ring.push off data).readPtr := by
        rw [hwrite]
        exact hread (by omega)
      have hold : ring.writePtr < ring.readPtr := by omega
      rw [Ringbuffer.queue_of_lt hold, Ringbuffer.queue_of_lt hlt, hwrite]
      simp only [Ringbuffer.load, Ringbuffer.push] at hlast hfirst ⊢
      rw [hlast, Nat.sub_add_comm hbw, hoff, ← slice_append_slice, hfirst, hjoin, hstored,
        List.append_assoc]

/-- Storing a block at the beginning when the write pointer rests on the end. -/
theorem written_push_zero (hw : ring.Wf) {data : List UInt8} (hwrite : ring.writePtr = ring.endPtr)
    (hpos : 0 < data.length) (hread : ring.beginPtr + data.length < ring.readPtr) :
    Written ring data (ring.push 0 data) := by
  have hlen := hw.length_buffer
  have heq := hw.end_eq
  have hre := hw.read_le_end
  have hstored : slice (overwrite ring.buffer 0 data) 0 data.length = data :=
    slice_overwrite_self (by omega)
  have hlast : slice (overwrite ring.buffer 0 data) (ring.readPtr - ring.beginPtr)
      (ring.endPtr - ring.readPtr) = ring.load ring.readPtr (ring.endPtr - ring.readPtr) :=
    slice_overwrite_of_disjoint (by omega)
  have hptr : (ring.push 0 data).writePtr = ring.beginPtr + data.length := rfl
  have hlt : (ring.push 0 data).writePtr < (ring.push 0 data).readPtr := hptr ▸ hread
  refine ⟨⟨(length_overwrite _ _ _).trans hlen, hw.bufferSize_pos, heq, hw.end_lt,
    hw.begin_le_read, hre, ?_, ?_, ?_⟩, ?_, rfl, rfl, rfl, rfl⟩
  · rw [hptr]
    exact Nat.le_add_right _ _
  · rw [hptr]
    exact Nat.le_of_lt (Nat.lt_of_lt_of_le hread hre)
  · rw [hptr]
    intro
    exact Nat.lt_add_of_pos_right hpos
  · rw [Ringbuffer.queue_of_lt hlt, hptr, Ringbuffer.queue_of_le (hwrite ▸ hre), hwrite]
    simp only [Ringbuffer.load, Ringbuffer.push] at hlast ⊢
    rw [hlast, Nat.sub_self, Nat.add_sub_cancel_left, hstored]

/-- A write stores its whole block or, when it does not fit, only counts the bytes. -/
theorem ringbufferWrite_cases (hw : ring.Wf) {data : List UInt8} {size : ℕ}
    (hdata : data.length = size) (hsize : ring.writePtr + size < 2 ^ 64) (hpos : 0 < size) :
    ring.Fits size ∧ (ringbufferWrite ring data size).1 = size ∧
        Written ring data (ringbufferWrite ring data size).2 ∨
      ¬ ring.Fits size ∧ ringbufferWrite ring data size = (-1, skipped ring size) := by
  have heq := hw.end_eq
  have hlt := hw.end_lt
  have hbr := hw.begin_le_read
  have hbw := hw.begin_le_write
  have hre := hw.read_le_end
  have hwe := hw.write_le_end
  have hlen := Ringbuffer.length_queue hw
  have htake : data.take size = data := by rw [← hdata, List.take_length]
  have hoff : ring.beginPtr + (ring.writePtr - ring.beginPtr) = ring.writePtr := by omega
  have hptr : ptrAdd ring.writePtr size = ring.writePtr + size := ptrAdd_of_lt (by omega)
  have hpush : ring.push (ring.writePtr - ring.beginPtr) data =
      { ring.store ring.writePtr data with writePtr := ring.writePtr + size } := by
    rw [Ringbuffer.push, hoff, hdata]
    rfl
  unfold ringbufferWrite Ringbuffer.Fits
  simp only [if_neg (Nat.pos_iff_ne_zero.mp hpos), hptr, htake, ← hpush]
  by_cases hle : ring.readPtr ≤ ring.writePtr
  · simp only [if_pos hle] at hlen ⊢
    by_cases hend : ring.writePtr + size ≤ ring.endPtr
    · rw [if_pos hend]
      exact .inl ⟨.inr ⟨hle, hend⟩, rfl, written_push hw (by omega) (by omega)⟩
    · -- the block goes around the end
      obtain ⟨first, hfirst⟩ : ∃ first, first = ring.endPtr - ring.writePtr := ⟨_, rfl⟩
      have hsub : sizeSub ring.endPtr ring.writePtr = first := by
        rw [sizeSub_of_le hwe hlt, hfirst]
      have hsecond : sizeSub size first = size - first := sizeSub_of_le (by omega) (by omega)
      have hadd : ptrAdd ring.beginPtr (size - first) = ring.beginPtr + (size - first) :=
        ptrAdd_of_lt (by omega)
      rw [if_neg hend]
      simp only [hsub, hsecond, hadd]
      by_cases hroom : ring.beginPtr + (size - first) < ring.readPtr
      · have hlenTake : (data.take first).length = first := by
          rw [List.length_take]
          omega
        have hlenDrop : (data.drop first).length = size - first := by
          rw [List.length_drop, hdata]
        have hslice : slice data first (size - first) = data.drop first := by
          rw [slice, ← hlenDrop, List.take_length]
        have hfull := written_push hw (show ring.writePtr + (data.take first).length ≤ _ by omega)
          (by omega)
        have hatEnd : (ring.push (ring.writePtr - ring.beginPtr) (data.take first)).writePtr =
            ring.endPtr := by
          simp only [Ringbuffer.push]
          omega
        have hrest := written_push_zero hfull.wf hatEnd
          (show 0 < (data.drop first).length by omega) (by rw [hlenDrop]; exact hroom)
        have hresult : (ring.push (ring.writePtr - ring.beginPtr) (data.take first)).push 0
            (data.drop first) =
            { (ring.store ring.writePtr (data.take first)).store ring.beginPtr
                (slice data first (size - first)) with
              writePtr := ring.beginPtr + (size - first) } := by
          simp only [Ringbuffer.push, Ringbuffer.store, hslice, hlenDrop, Nat.sub_self, Nat.add_zero]
        rw [if_pos hroom, ← hresult]
        refine .inl ⟨.inl (by omega), rfl, ?_⟩
        simpa only [List.take_append_drop] using hfull.trans hrest
      · rw [if_neg hroom]
        exact .inr ⟨by omega, rfl⟩
  · simp only [if_neg hle] at hlen ⊢
    by_cases hroom : ring.writePtr + size < ring.readPtr
    · rw [if_pos hroom]
      exact .inl ⟨.inl (by omega), rfl, written_push hw (by omega) (by omega)⟩
    · rw [if_neg hroom]
      exact .inr ⟨by omega, rfl⟩

/-- A write looks at the bytes it is given the size of only. -/
theorem ringbufferWrite_take (hw : ring.Wf) (data : List UInt8) (size : ℕ) :
    ringbufferWrite ring (data.take size) size = ringbufferWrite ring data size := by
  have hlt := hw.end_lt
  have hwe := hw.write_le_end
  have hfirst : sizeSub ring.endPtr ring.writePtr = ring.endPtr - ring.writePtr :=
    sizeSub_of_le hwe hlt
  unfold ringbufferWrite
  simp only [List.take_take, min_self]
  split
  case isTrue => rfl
  split
  case isFalse => rfl
  split
  case isTrue => rfl
  case isFalse hend =>
    -- both blocks of a write around the end are inside the given bytes
    have hle : ring.endPtr - ring.writePtr ≤ size := by
      by_contra hgt
      rw [ptrAdd_of_lt (by omega)] at hend
      omega
    have hsecond : sizeSub size (ring.endPtr - ring.writePtr) ≤
        size - (ring.endPtr - ring.writePtr) := by
      rw [sizeSub, Nat.add_sub_assoc hle, Nat.add_mod_left]
      exact Nat.mod_le _ _
    rw [hfirst, Nat.min_eq_left hle, slice_take (by omega)]

/-- A write whose block fits stores all of it. -/
theorem ringbufferWrite_of_fits (hw : ring.Wf) {data : List UInt8} {size : ℕ}
    (hdata : data.length = size) (hsize : ring.endPtr + size < 2 ^ 64) (hfits : ring.Fits size) :
    (ringbufferWrite ring data size).1 = size ∧
      Written ring data (ringbufferWrite ring data size).2 := by
  by_cases hzero : size = 0
  · have hnil : data = [] := List.eq_nil_of_length_eq_zero (hdata.trans hzero)
    rw [ringbufferWrite, if_pos hzero, hnil, hzero]
    exact ⟨rfl, hw, (List.append_nil _).symm, rfl, rfl, rfl, rfl⟩
  · rcases ringbufferWrite_cases hw hdata (hw.writePtr_add_lt hsize)
        (Nat.pos_of_ne_zero hzero) with h | h
    · exact h.2
    · exact absurd hfits h.1

/-- There is always room for a block that leaves one byte of the capacity unused. -/
theorem fits_of_lt {size : ℕ} (h : ring.queue.length + size < ring.bufferSize) :
    ring.Fits size := .inl h

theorem pos_of_not_fits (hw : ring.Wf) {size : ℕ} (h : ¬ ring.Fits size) : 0 < size := by
  have := hw.end_eq
  have := hw.read_le_end
  have := hw.write_le_end
  have := hw.begin_lt_write
  have hlen := Ringbuffer.length_queue hw
  simp only [Ringbuffer.Fits] at h
  split at hlen <;> omega

/-- A block that fits does not exceed the capacity. -/
theorem le_bufferSize_of_fits (hw : ring.Wf) {size : ℕ} (h : ring.Fits size) :
    ring.queue.length + size ≤ ring.bufferSize := by
  have := hw.end_eq
  have := hw.begin_le_read
  have := Ringbuffer.length_queue hw
  rcases h with h | ⟨hle, hend⟩
  · omega
  · rw [if_pos hle] at this
    omega

/-! ### Reading -/

/-- The read pointer after `n` bytes. -/
def Ringbuffer.advance (ring : Ringbuffer) (n : ℕ) : ℕ :=
  if ring.readPtr + n ≤ ring.endPtr then ring.readPtr + n
  else ring.beginPtr + (n - (ring.endPtr - ring.readPtr))

/-- The effect of removing the oldest `n` bytes. -/
structure Removed (ring : Ringbuffer) (n : ℕ) (ring' : Ringbuffer) : Prop where
  wf : ring'.Wf
  eq : ring' = { ring with readPtr := ring.advance (min n ring.queue.length) }
  queue : ring'.queue = ring.queue.drop n
  writePtr : ring'.writePtr = ring.writePtr
  beginPtr : ring'.beginPtr = ring.beginPtr
  bufferSize : ring'.bufferSize = ring.bufferSize
  skipCount : ring'.skipCount = ring.skipCount

theorem removed_zero (hw : ring.Wf) : Removed ring 0 ring := by
  refine ⟨hw, ?_, rfl, rfl, rfl, rfl, rfl⟩
  rw [Nat.zero_min, Ringbuffer.advance, Nat.add_zero, if_pos hw.read_le_end]

/-- Advancing the read pointer inside the block in front of it. -/
theorem removed_advance (hw : ring.Wf) {n : ℕ} (hend : ring.readPtr + n ≤ ring.endPtr)
    (hwrite : ring.readPtr ≤ ring.writePtr → ring.readPtr + n ≤ ring.writePtr) :
    Removed ring n { ring with readPtr := ring.readPtr + n } ∧
      ring.load ring.readPtr n = ring.queue.take n := by
  have hbr := hw.begin_le_read
  have hwrap := hw.begin_lt_write
  have hwf : ({ ring with readPtr := ring.readPtr + n } : Ringbuffer).Wf :=
    ⟨hw.1, hw.2, hw.3, hw.4, Nat.le_trans hbr (Nat.le_add_right _ _), hend, hw.7, hw.8,
      fun h => hwrap (by simp only at h; omega)⟩
  have hcut {len : ℕ} (hn : n ≤ len) : ring.load ring.readPtr len =
      ring.load ring.readPtr n ++ ring.load (ring.readPtr + n) (len - n) := by
    rw [Ringbuffer.load_append hbr]
    congr 1
    omega
  have hlen := Ringbuffer.length_load hw hbr hend
  have hadvance : ring.advance n = ring.readPtr + n := if_pos hend
  have hqueue := Ringbuffer.length_queue hw
  by_cases h : ring.readPtr ≤ ring.writePtr
  · have hle := hwrite h
    rw [if_pos h] at hqueue
    have hq : ring.queue = ring.load ring.readPtr n ++
        ring.load (ring.readPtr + n) (ring.writePtr - ring.readPtr - n) := by
      rw [Ringbuffer.queue_of_le h, hcut (by omega)]
    have hq' : ({ ring with readPtr := ring.readPtr + n } : Ringbuffer).queue =
        ring.load (ring.readPtr + n) (ring.writePtr - (ring.readPtr + n)) :=
      Ringbuffer.queue_of_le hle
    refine ⟨⟨hwf, ?_, ?_, rfl, rfl, rfl, rfl⟩, ?_⟩
    · rw [Nat.min_eq_left (by omega), hadvance]
    · rw [hq', hq, List.drop_left' hlen, Nat.sub_sub]
    · rw [hq, List.take_left' hlen]
  · rw [if_neg h] at hqueue
    have hq : ring.queue = ring.load ring.readPtr n ++
        (ring.load (ring.readPtr + n) (ring.endPtr - ring.readPtr - n) ++
          ring.load ring.beginPtr (ring.writePtr - ring.beginPtr)) := by
      rw [Ringbuffer.queue_of_lt (by omega), hcut (by omega), List.append_assoc]
    have hq' : ({ ring with readPtr := ring.readPtr + n } : Ringbuffer).queue =
        ring.load (ring.readPtr + n) (ring.endPtr - (ring.readPtr + n)) ++
          ring.load ring.beginPtr (ring.writePtr - ring.beginPtr) :=
      Ringbuffer.queue_of_lt (by simp only; omega)
    refine ⟨⟨hwf, ?_, ?_, rfl, rfl, rfl, rfl⟩, ?_⟩
    · rw [Nat.min_eq_left (by omega), hadvance]
    · rw [hq', hq, List.drop_left' hlen, Nat.sub_sub]
    · rw [hq, List.take_left' hlen]

/-- Moving the read pointer around the end. -/
theorem removed_wrap (hw : ring.Wf) (hlt : ring.writePtr < ring.readPtr) {second : ℕ}
    (hpos : 0 < second) (hsecond : ring.beginPtr + second ≤ ring.writePtr) :
    Removed ring (ring.endPtr - ring.readPtr + second)
        { ring with readPtr := ring.beginPtr + second } ∧
      ring.load ring.readPtr (ring.endPtr - ring.readPtr) ++ ring.load ring.beginPtr second =
        ring.queue.take (ring.endPtr - ring.readPtr + second) := by
  have hbr := hw.begin_le_read
  have hre := hw.read_le_end
  have hwe := hw.write_le_end
  have hcut : ring.load ring.beginPtr (ring.writePtr - ring.beginPtr) =
      ring.load ring.beginPtr second ++
        ring.load (ring.beginPtr + second) (ring.writePtr - (ring.beginPtr + second)) := by
    rw [Ringbuffer.load_append (Nat.le_refl _)]
    congr 1
    omega
  have hlen : (ring.load ring.readPtr (ring.endPtr - ring.readPtr) ++
      ring.load ring.beginPtr second).length = ring.endPtr - ring.readPtr + second := by
    rw [List.length_append, Ringbuffer.length_load hw hbr (by omega),
      Ringbuffer.length_load hw (Nat.le_refl _) (by omega)]
  have hq : ring.queue = (ring.load ring.readPtr (ring.endPtr - ring.readPtr) ++
      ring.load ring.beginPtr second) ++
        ring.load (ring.beginPtr + second) (ring.writePtr - (ring.beginPtr + second)) := by
    rw [Ringbuffer.queue_of_lt hlt, hcut, List.append_assoc]
  have hq' : ({ ring with readPtr := ring.beginPtr + second } : Ringbuffer).queue =
      ring.load (ring.beginPtr + second) (ring.writePtr - (ring.beginPtr + second)) :=
    Ringbuffer.queue_of_le hsecond
  have hqueue := Ringbuffer.length_queue hw
  rw [if_neg (by omega)] at hqueue
  have hadvance : ring.advance (ring.endPtr - ring.readPtr + second) = ring.beginPtr + second := by
    rw [Ringbuffer.advance, if_neg (by omega), Nat.add_sub_cancel_left]
  refine ⟨⟨⟨hw.1, hw.2, hw.3, hw.4, Nat.le_add_right _ _, ?_, hw.7, hw.8, ?_⟩,
    ?_, ?_, rfl, rfl, rfl, rfl⟩, ?_⟩
  · exact Nat.le_trans hsecond hwe
  · intro h
    exact absurd h (Nat.not_lt.mpr hsecond)
  · rw [Nat.min_eq_left (by omega), hadvance]
  · rw [hq', hq, List.drop_left' hlen]
  · rw [hq, List.take_left' hlen]

/-- What a read of `size` bytes that stored `out` did. -/
structure ReadSpec (ring : Ringbuffer) (size : ℕ) (result : ReadResult) : Prop where
  ret : result.ret = (min size ring.queue.length : ℕ)
  out : result.out = ring.queue.take size
  removed : Removed ring size result.ring

/-- Reading all of `n = min size used` bytes is reading `size` bytes. -/
theorem ReadSpec.of_min {size n : ℕ} {result : ReadResult} (hn : n = min size ring.queue.length)
    (hret : result.ret = n) (hout : result.out = ring.queue.take n)
    (hremoved : Removed ring n result.ring) : ReadSpec ring size result where
  ret := hn ▸ hret
  out := by rw [hout, hn, ← List.take_eq_take_min]
  removed :=
    ⟨hremoved.wf, hremoved.eq.trans (by rw [hn, Nat.min_assoc, Nat.min_self]),
      by rw [hremoved.queue, hn, ← List.drop_eq_drop_min], hremoved.writePtr, hremoved.beginPtr,
      hremoved.bufferSize, hremoved.skipCount⟩

/-- A read removes and returns the oldest bytes, or leaves the ring as it is because a
copy failed. -/
theorem ringbufferReadWith_cases (hw : ring.Wf) (copy : ℕ → ℕ → Bool) {buffer size : ℕ}
    (hsize : ring.readPtr + size < 2 ^ 64) :
    ReadSpec ring size (ringbufferReadWith copy ring buffer size) ∨
      (buffer = 0 ∨ ∃ dst, ∃ n ≤ size, copy dst n = false) ∧
        (ringbufferReadWith copy ring buffer size).ret = -1 ∧
        (ringbufferReadWith copy ring buffer size).ring = ring := by
  have heq := hw.end_eq
  have hlt := hw.end_lt
  have hbr := hw.begin_le_read
  have hbw := hw.begin_le_write
  have hre := hw.read_le_end
  have hwe := hw.write_le_end
  have hlen := Ringbuffer.length_queue hw
  have hptr : ptrAdd ring.readPtr size = ring.readPtr + size := ptrAdd_of_lt (by omega)
  unfold ringbufferReadWith
  by_cases hbuffer : buffer = 0
  · rw [if_pos hbuffer]
    exact .inr ⟨.inl hbuffer, rfl, rfl⟩
  by_cases hzero : size = 0
  · rw [if_neg hbuffer, if_pos hzero, hzero]
    exact .inl ⟨by simp, rfl, removed_zero hw⟩
  simp only [if_neg hbuffer, if_neg hzero, hptr]
  rcases Nat.lt_trichotomy ring.readPtr ring.writePtr with h | h | h
  · -- one block in front of the read pointer
    obtain ⟨todo, htodo⟩ : ∃ todo, todo = min size (ring.writePtr - ring.readPtr) := ⟨_, rfl⟩
    have hif : (if ring.readPtr + size ≤ ring.writePtr then size
        else sizeSub ring.writePtr ring.readPtr) = todo := by
      split
      · omega
      · rw [sizeSub_of_le (by omega) (by omega)]
        omega
    have hadd : ptrAdd ring.readPtr todo = ring.readPtr + todo := ptrAdd_of_lt (by omega)
    obtain ⟨hremoved, hload⟩ := removed_advance hw (show ring.readPtr + todo ≤ ring.endPtr by omega)
      (by omega)
    rw [if_pos (by omega)] at hlen
    simp only [if_pos h, hif, hadd, if_pos (show todo > 0 by omega)]
    split
    · exact .inl (.of_min (by omega) rfl hload hremoved)
    · exact .inr ⟨.inr ⟨buffer, todo, by omega, by simp_all⟩, rfl, rfl⟩
  · rw [if_neg (by omega), if_neg (by omega)]
    have hnil := (Ringbuffer.queue_eq_nil_iff hw).mpr h
    exact .inl (.of_min (n := 0) (by simp [hnil]) rfl rfl (removed_zero hw))
  · have hnot : ¬ ring.readPtr < ring.writePtr := by omega
    rw [if_neg (by omega)] at hlen
    simp only [if_neg hnot, if_pos h]
    by_cases hend : ring.readPtr + size ≤ ring.endPtr
    · obtain ⟨hremoved, hload⟩ := removed_advance hw hend (by omega)
      simp only [if_pos hend]
      split
      · exact .inl (.of_min (by omega) rfl hload hremoved)
      · exact .inr ⟨.inr ⟨buffer, size, Nat.le_refl _, by simp_all⟩, rfl, rfl⟩
    · -- the block goes around the end
      obtain ⟨second, hsecond⟩ :
          ∃ second, second = min (size - (ring.endPtr - ring.readPtr))
            (ring.writePtr - ring.beginPtr) := ⟨_, rfl⟩
      have hfirst : sizeSub ring.endPtr ring.readPtr = ring.endPtr - ring.readPtr :=
        sizeSub_of_le hre hlt
      have hrest : sizeSub size (ring.endPtr - ring.readPtr) =
          size - (ring.endPtr - ring.readPtr) := sizeSub_of_le (by omega) (by omega)
      have hclip : (if ptrAdd ring.beginPtr (size - (ring.endPtr - ring.readPtr)) > ring.writePtr
          then sizeSub ring.writePtr ring.beginPtr else size - (ring.endPtr - ring.readPtr)) =
          second := by
        rw [ptrAdd_of_lt (by omega), sizeSub_of_le hbw (by omega)]
        split <;> omega
      have hadd : ptrAdd (ring.endPtr - ring.readPtr) second = ring.endPtr - ring.readPtr + second :=
        ptrAdd_of_lt (by omega)
      have hwrap := hw.begin_lt_write h
      have hpos : ring.endPtr - ring.readPtr + second > 0 := by omega
      have hnew : ptrAdd ring.beginPtr second = ring.beginPtr + second := ptrAdd_of_lt (by omega)
      obtain ⟨hremoved, hload⟩ := removed_wrap hw h (show 0 < second by omega)
        (show ring.beginPtr + second ≤ ring.writePtr by omega)
      simp only [if_neg hend, hfirst, hrest, hclip, hadd, if_pos hpos, hnew]
      split
      next hfail =>
        exact .inr ⟨.inr ⟨buffer, ring.endPtr - ring.readPtr, by omega, by simpa using hfail.2⟩,
          rfl, rfl⟩
      next =>
        split
        next hfail =>
          exact .inr ⟨.inr ⟨_, second, by omega, by simpa using hfail.2⟩, rfl, rfl⟩
        next => exact .inl (.of_min (by omega) rfl hload hremoved)

/-- A read whose copies succeed returns the oldest bytes. -/
theorem ringbufferReadWith_spec (hw : ring.Wf) {copy : ℕ → ℕ → Bool} {buffer size : ℕ}
    (hbuffer : buffer ≠ 0) (hsize : ring.endPtr + size < 2 ^ 64)
    (hcopy : ∀ dst, ∀ n ≤ size, copy dst n = true) :
    ReadSpec ring size (ringbufferReadWith copy ring buffer size) := by
  have hptr : ring.readPtr + size < 2 ^ 64 := by
    have := hw.read_le_end
    omega
  rcases ringbufferReadWith_cases hw copy hptr with h | ⟨hfail | ⟨dst, n, hn, hfail⟩, -⟩
  · exact h
  · exact absurd hfail hbuffer
  · rw [hcopy dst n hn] at hfail
    cases hfail

/-- With a copy that refuses blocks as large as the space behind the ring, sizes for which
the pointer sum wraps do no harm. -/
theorem ringbufferReadWith_of_bounded (hw : ring.Wf) {copy : ℕ → ℕ → Bool} {bound : ℕ}
    (hbound : ring.endPtr + bound ≤ 2 ^ 64) (hcopy : ∀ dst n, copy dst n = true → n < bound)
    (buffer : ℕ) {size : ℕ} (hsize : size < 2 ^ 64) :
    ReadSpec ring size (ringbufferReadWith copy ring buffer size) ∨
      (ringbufferReadWith copy ring buffer size).ret = -1 ∧
        (ringbufferReadWith copy ring buffer size).ring = ring := by
  have hre := hw.read_le_end
  have hlt := hw.end_lt
  by_cases hwrap : ring.readPtr + size < 2 ^ 64
  · exact (ringbufferReadWith_cases hw copy hwrap).imp_right And.right
  have hptr : ptrAdd ring.readPtr size < ring.readPtr := by
    rw [ptrAdd, Nat.mod_eq_sub_mod (by omega), Nat.mod_eq_of_lt (by omega)]
    omega
  have hfail : ¬ copy buffer size = true := fun h => by
    have := hcopy buffer size h
    omega
  unfold ringbufferReadWith
  by_cases hbuffer : buffer = 0
  · rw [if_pos hbuffer]
    exact .inr ⟨rfl, rfl⟩
  have hzero : ¬ size = 0 := by omega
  simp only [if_neg hbuffer, if_neg hzero]
  rcases Nat.lt_trichotomy ring.readPtr ring.writePtr with h | h | h
  · simp only [if_pos h, if_pos (show ptrAdd ring.readPtr size ≤ ring.writePtr by omega),
      if_neg hfail]
    exact .inr (by simp)
  · simp only [if_neg (show ¬ ring.readPtr < ring.writePtr by omega),
      if_neg (show ¬ ring.readPtr > ring.writePtr by omega)]
    have hnil := (Ringbuffer.queue_eq_nil_iff hw).mpr h
    exact .inl (.of_min (n := 0) (by simp [hnil]) rfl rfl (removed_zero hw))
  · simp only [if_neg (show ¬ ring.readPtr < ring.writePtr by omega), if_pos h,
      if_pos (show ptrAdd ring.readPtr size ≤ ring.endPtr by omega), if_neg hfail]
    exact .inr (by simp)

theorem ringbufferRawread_spec (hw : ring.Wf) {buffer size : ℕ} (hbuffer : buffer ≠ 0)
    (hsize : ring.endPtr + size < 2 ^ 64) :
    ReadSpec ring size (ringbufferRawread ring buffer size) :=
  ringbufferReadWith_spec hw hbuffer hsize fun _ _ _ => rfl

end

end AptUsbtrx
