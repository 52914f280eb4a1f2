import AptUsbtrx.Verification.Ringbuffer.Refinement

/-! # Sizes at the limits of the ring

The operations compare sums of a pointer and a size. This is about the sizes for which such a
sum wraps around the address space, and about a write of exactly the free size. -/

namespace AptUsbtrx

open Memory

/-- The pointer sums of the call do not wrap in this state. -/
def RingOp.Unwrapped (ring : Ringbuffer) : RingOp → Prop
  | .write buffer => ring.writePtr + buffer.length < 2 ^ 64
  | .read buffer size | .rawread buffer size =>
      buffer = 0 ∨ ring.readPtr = ring.writePtr ∨ ring.readPtr + size < 2 ^ 64
  | .clear => True

/-- The states of rings at any address, of any size, whose calls do not wrap. -/
inductive Ringbuffer.Reachable (copyToUser : ℕ → ℕ → Bool) : Ringbuffer → Prop where
  | init {buffer size : ℕ} : 1 ≤ size → buffer + size < 2 ^ 64 →
      Reachable copyToUser (ringbufferInit buffer size)
  | step {ring : Ringbuffer} {op : RingOp} : Reachable copyToUser ring → op.Unwrapped ring →
      Reachable copyToUser (ringStep copyToUser ring op)

section

variable {ring : Ringbuffer} {copy : ℕ → ℕ → Bool} {buffer size : ℕ}

/-- Nothing is read without a buffer or from an empty ring, whatever the size. -/
theorem ringbufferReadWith_idle (h : buffer = 0 ∨ ring.readPtr = ring.writePtr) :
    (ringbufferReadWith copy ring buffer size).ring = ring := by
  rw [ringbufferReadWith]
  by_cases hbuffer : buffer = 0
  · rw [if_pos hbuffer]
  · have heq := h.resolve_left hbuffer
    rw [if_neg hbuffer]
    by_cases hzero : size = 0
    · rw [if_pos hzero]
    · rw [if_neg hzero, if_neg (by omega), if_neg (by omega)]

/-- A read that does not wrap leaves a ring at the same place. -/
theorem wf_ringbufferReadWith (hw : ring.Wf) (copy : ℕ → ℕ → Bool)
    (h : buffer = 0 ∨ ring.readPtr = ring.writePtr ∨ ring.readPtr + size < 2 ^ 64) :
    (ringbufferReadWith copy ring buffer size).ring.Wf ∧
      (ringbufferReadWith copy ring buffer size).ring.beginPtr = ring.beginPtr ∧
      (ringbufferReadWith copy ring buffer size).ring.endPtr = ring.endPtr := by
  rcases or_assoc.mpr h with hidle | hsize
  · rw [ringbufferReadWith_idle hidle]
    exact ⟨hw, rfl, rfl⟩
  · obtain hread | ⟨-, -, hring⟩ :
        ReadSpec ring size (ringbufferReadWith copy ring buffer size) ∨ _ :=
      ringbufferReadWith_cases hw copy hsize
    · have hremoved := hread.removed
      exact ⟨hremoved.wf, hremoved.beginPtr, by rw [hremoved.eq]⟩
    · rw [hring]
      exact ⟨hw, rfl, rfl⟩

theorem wf_ringbufferWrite (hw : ring.Wf) {data : List UInt8}
    (hsize : ring.writePtr + data.length < 2 ^ 64) :
    (ringbufferWrite ring data data.length).2.Wf := by
  rcases Nat.eq_zero_or_pos data.length with hzero | hpos
  · rw [ringbufferWrite, if_pos hzero]
    exact hw
  · rcases ringbufferWrite_cases hw rfl hsize hpos with ⟨-, -, hwritten⟩ | ⟨-, hskipped⟩
    · exact hwritten.wf
    · rw [hskipped]
      exact wf_skipped hw _

theorem Ringbuffer.Reachable.wf {copyToUser : ℕ → ℕ → Bool} (h : ring.Reachable copyToUser) :
    ring.Wf := by
  induction h with
  | init hsize hlt => exact wf_ringbufferInit hsize hlt
  | @step ring op _ hop hw =>
      cases op with
      | write data => exact wf_ringbufferWrite hw hop
      | read buffer size | rawread buffer size => exact (wf_ringbufferReadWith hw _ hop).1
      | clear => exact wf_ringbufferClear hw

/-! ### What a read hands to the copy function -/

/-- What a read can do, with the copies it asks for: one block or, around the end, two of them that
can be empty. -/
inductive ReadRun (copy : ℕ → ℕ → Bool) (ring : Ringbuffer) (buffer : ℕ) :
    ReadResult → List Copy → Prop
  | noBuffer : buffer = 0 → ReadRun copy ring buffer ⟨-1, ring, []⟩ []
  | nothing : buffer ≠ 0 → ReadRun copy ring buffer ⟨0, ring, []⟩ []
  | block (n : ℕ) (ring' : Ringbuffer) : buffer ≠ 0 → copy buffer n = true →
      ReadRun copy ring buffer ⟨n, ring', ring.load ring.readPtr n⟩ [⟨buffer, ring.readPtr, n⟩]
  | blockFailed (n : ℕ) : copy buffer n = false →
      ReadRun copy ring buffer ⟨-1, ring, []⟩ [⟨buffer, ring.readPtr, n⟩]
  | around (first second : ℕ) (ring' : Ringbuffer) : buffer ≠ 0 →
      (first > 0 → copy buffer first = true) →
      (second > 0 → copy (ptrAdd buffer first) second = true) →
      ReadRun copy ring buffer
        ⟨ptrAdd first second, ring', ring.load ring.readPtr first ++ ring.load ring.beginPtr second⟩
        ((if first > 0 then [⟨buffer, ring.readPtr, first⟩] else []) ++
          if second > 0 then [⟨ptrAdd buffer first, ring.beginPtr, second⟩] else [])
  | secondFailed (first second : ℕ) : (first > 0 → copy buffer first = true) → second > 0 →
      copy (ptrAdd buffer first) second = false →
      ReadRun copy ring buffer ⟨-1, ring, ring.load ring.readPtr first⟩
        ((if first > 0 then [⟨buffer, ring.readPtr, first⟩] else []) ++
          [⟨ptrAdd buffer first, ring.beginPtr, second⟩])

theorem ringbufferReadWith_readRun (copy : ℕ → ℕ → Bool) (ring : Ringbuffer) (buffer size : ℕ) :
    ReadRun copy ring buffer (ringbufferReadWith copy ring buffer size)
      (ringbufferReadCopies copy ring buffer size) := by
  rw [ringbufferReadWith, ringbufferReadCopies]
  by_cases hbuffer : buffer = 0
  · rw [if_pos hbuffer, if_pos hbuffer]
    exact .noBuffer hbuffer
  have hblock : ∀ (n : ℕ) (ring' : Ringbuffer), ReadRun copy ring buffer
      (if copy buffer n = true then ⟨n, ring', ring.load ring.readPtr n⟩ else ⟨-1, ring, []⟩)
      [⟨buffer, ring.readPtr, n⟩] := by
    intro n ring'
    split
    next hcopy => exact .block n ring' hbuffer hcopy
    next hcopy => exact .blockFailed n (Bool.eq_false_of_not_eq_true hcopy)
  rw [if_neg hbuffer, if_neg hbuffer]
  by_cases hzero : size = 0
  · rw [if_pos hzero, if_pos hzero]
    exact .nothing hbuffer
  rw [if_neg hzero, if_neg hzero]
  dsimp only
  by_cases hlt : ring.readPtr < ring.writePtr
  · rw [if_pos hlt, if_pos hlt]
    exact hblock _ _
  rw [if_neg hlt, if_neg hlt]
  by_cases hgt : ring.readPtr > ring.writePtr
  · rw [if_pos hgt, if_pos hgt]
    by_cases hend : ptrAdd ring.readPtr size ≤ ring.endPtr
    · rw [if_pos hend, if_pos hend]
      exact hblock _ _
    rw [if_neg hend, if_neg hend]
    generalize sizeSub ring.endPtr ring.readPtr = first
    generalize (if ptrAdd ring.beginPtr (sizeSub size first) > ring.writePtr then
      sizeSub ring.writePtr ring.beginPtr else sizeSub size first) = second
    by_cases hfirst : first > 0 ∧ ¬ copy buffer first = true
    · rw [if_pos hfirst, if_pos hfirst]
      exact .blockFailed first (Bool.eq_false_of_not_eq_true hfirst.2)
    rw [if_neg hfirst, if_neg hfirst]
    rw [not_and_not_right] at hfirst
    by_cases hsecond : second > 0 ∧ ¬ copy (ptrAdd buffer first) second = true
    · rw [if_pos hsecond, if_pos hsecond.1]
      exact .secondFailed first second hfirst hsecond.1 (Bool.eq_false_of_not_eq_true hsecond.2)
    · rw [if_neg hsecond]
      rw [not_and_not_right] at hsecond
      exact .around first second _ hbuffer hfirst hsecond
  · rw [if_neg hgt, if_neg hgt]
    exact .nothing hbuffer

/-- The bytes a read stores are those of its copies that succeed. -/
theorem ringbufferReadWith_out (copy : ℕ → ℕ → Bool) (ring : Ringbuffer) (buffer size : ℕ) :
    (ringbufferReadWith copy ring buffer size).out =
      ((ringbufferReadCopies copy ring buffer size).filter fun c => copy c.dst c.size).flatMap
        fun c => ring.load c.src c.size := by
  have hblock : ∀ dst src n, (n > 0 → copy dst n = true) →
      ((if n > 0 then [Copy.mk dst src n] else []).filter fun c => copy c.dst c.size).flatMap
        (fun c => ring.load c.src c.size) = ring.load src n := by
    intro dst src n hcopy
    split
    next hpos => simp [hcopy hpos]
    next hzero =>
      rw [Nat.eq_zero_of_not_pos hzero]
      exact (slice_zero_length _ _).symm
  have hrun := ringbufferReadWith_readRun copy ring buffer size
  generalize ringbufferReadWith copy ring buffer size = result at hrun ⊢
  generalize ringbufferReadCopies copy ring buffer size = copies at hrun ⊢
  cases hrun with
  | noBuffer | nothing => rfl
  | block n ring' _ hcopy => simp [hcopy]
  | blockFailed n hcopy => simp [hcopy]
  | around first second ring' _ hfirst hsecond =>
      rw [List.filter_append, List.flatMap_append, hblock _ _ _ hfirst, hblock _ _ _ hsecond]
  | secondFailed first second hfirst _ hsecond =>
      rw [List.filter_append, List.flatMap_append, hblock _ _ _ hfirst]
      simp [hsecond]

/-- A read succeeds when it has a buffer and all of its copies succeed. -/
theorem ringbufferReadWith_ret_nonneg_iff (copy : ℕ → ℕ → Bool) (ring : Ringbuffer)
    (buffer size : ℕ) : 0 ≤ (ringbufferReadWith copy ring buffer size).ret ↔
      buffer ≠ 0 ∧ ∀ c ∈ ringbufferReadCopies copy ring buffer size, copy c.dst c.size = true := by
  have hrun := ringbufferReadWith_readRun copy ring buffer size
  generalize ringbufferReadWith copy ring buffer size = result at hrun ⊢
  generalize ringbufferReadCopies copy ring buffer size = copies at hrun ⊢
  cases hrun with
  | noBuffer hzero => simp [hzero]
  | nothing hbuffer => simp [hbuffer]
  | block n ring' hbuffer hcopy => simp [hbuffer, hcopy]
  | blockFailed n hcopy => simp [hcopy]
  | around first second ring' hbuffer hfirst hsecond =>
      refine iff_of_true (Int.natCast_nonneg _) ⟨hbuffer, fun c hc => ?_⟩
      rcases List.mem_append.mp hc with hc | hc
      all_goals
        split at hc
        · obtain rfl := List.mem_singleton.mp hc
          first
          | exact hfirst ‹_›
          | exact hsecond ‹_›
        · cases hc
  | secondFailed first second _ _ hsecond => simp [hsecond]

/-- What a read of the ring should keep to: the blocks it has copied are inside the ring and no
longer in all than what is used of it, and its pointer stays inside. -/
structure ReadInBounds (copyToUser : ℕ → ℕ → Bool) (ring : Ringbuffer) (buffer size : ℕ) :
    Prop where
  total_le : ((ringbufferReadCopies copyToUser ring buffer size).map Copy.size).sum ≤
    ringbufferGetUsedSize ring
  inside : ∀ c ∈ ringbufferReadCopies copyToUser ring buffer size,
    ring.beginPtr ≤ c.src ∧ c.src + c.size ≤ ring.endPtr
  begin_le_read : ring.beginPtr ≤ (ringbufferRead copyToUser ring buffer size).ring.readPtr
  read_le_end : (ringbufferRead copyToUser ring buffer size).ring.readPtr ≤ ring.endPtr

theorem ringbufferReadCopies_idle (h : buffer = 0 ∨ ring.readPtr = ring.writePtr) :
    ringbufferReadCopies copy ring buffer size = [] := by
  rw [ringbufferReadCopies]
  by_cases hbuffer : buffer = 0
  · rw [if_pos hbuffer]
  · have heq := h.resolve_left hbuffer
    rw [if_neg hbuffer]
    by_cases hzero : size = 0
    · rw [if_pos hzero]
    · rw [if_neg hzero, if_neg (by omega), if_neg (by omega)]

/-- A size that wraps the sum with the read pointer is taken as it is. -/
theorem ringbufferReadCopies_of_wrap (hw : ring.Wf) (hbuffer : buffer ≠ 0)
    (hne : ring.readPtr ≠ ring.writePtr) (hsize : size < 2 ^ 64)
    (hwrap : 2 ^ 64 ≤ ring.readPtr + size) :
    ringbufferReadCopies copy ring buffer size = [⟨buffer, ring.readPtr, size⟩] := by
  have hre := hw.read_le_end
  have hlt := hw.end_lt
  have hptr : ptrAdd ring.readPtr size < ring.readPtr := by
    rw [ptrAdd, Nat.mod_eq_sub_mod hwrap, Nat.mod_eq_of_lt (by omega)]
    omega
  rw [ringbufferReadCopies, if_neg hbuffer, if_neg (by omega)]
  by_cases h : ring.readPtr < ring.writePtr
  · simp only [if_pos h, if_pos (show ptrAdd ring.readPtr size ≤ ring.writePtr by omega)]
  · simp only [if_neg h, if_pos (show ring.readPtr > ring.writePtr by omega),
      if_pos (show ptrAdd ring.readPtr size ≤ ring.endPtr by omega)]

theorem ringbufferReadCopies_of_lt (hw : ring.Wf) (hsize : ring.readPtr + size < 2 ^ 64) :
    ((ringbufferReadCopies copy ring buffer size).map Copy.size).sum ≤ ring.queue.length ∧
      ∀ c ∈ ringbufferReadCopies copy ring buffer size,
        ring.beginPtr ≤ c.src ∧ c.src + c.size ≤ ring.endPtr := by
  have hlt := hw.end_lt
  have hbr := hw.begin_le_read
  have hbw := hw.begin_le_write
  have hre := hw.read_le_end
  have hwe := hw.write_le_end
  have hlen := Ringbuffer.length_queue hw
  have hptr : ptrAdd ring.readPtr size = ring.readPtr + size := ptrAdd_of_lt hsize
  rw [ringbufferReadCopies]
  by_cases hbuffer : buffer = 0
  · simp [hbuffer]
  by_cases hzero : size = 0
  · simp [hbuffer, hzero]
  simp only [if_neg hbuffer, if_neg hzero, hptr]
  rcases Nat.lt_trichotomy ring.readPtr ring.writePtr with h | h | h
  · have htodo : (if ring.readPtr + size ≤ ring.writePtr then size
        else sizeSub ring.writePtr ring.readPtr) ≤ ring.writePtr - ring.readPtr := by
      split
      · omega
      · rw [sizeSub_of_le (by omega) (by omega)]
    rw [if_pos (by omega)] at hlen
    simp only [if_pos h, List.map_cons, List.map_nil, List.sum_cons, List.sum_nil,
      List.mem_singleton, forall_eq]
    omega
  · rw [if_neg (by omega), if_neg (by omega)]
    simp
  · have hnot : ¬ ring.readPtr < ring.writePtr := by omega
    rw [if_neg (by omega)] at hlen
    simp only [if_neg hnot, if_pos h]
    by_cases hend : ring.readPtr + size ≤ ring.endPtr
    · simp only [if_pos hend, List.map_cons, List.map_nil, List.sum_cons, List.sum_nil,
        List.mem_singleton, forall_eq]
      omega
    · -- the block goes around the end
      have hfirst : sizeSub ring.endPtr ring.readPtr = ring.endPtr - ring.readPtr :=
        sizeSub_of_le hre hlt
      have hrest : sizeSub size (ring.endPtr - ring.readPtr) =
          size - (ring.endPtr - ring.readPtr) := sizeSub_of_le (by omega) (by omega)
      have hsecond : (if ptrAdd ring.beginPtr (size - (ring.endPtr - ring.readPtr)) > ring.writePtr
          then sizeSub ring.writePtr ring.beginPtr else size - (ring.endPtr - ring.readPtr)) ≤
          ring.writePtr - ring.beginPtr := by
        rw [ptrAdd_of_lt (by omega), sizeSub_of_le hbw (by omega)]
        split <;> omega
      simp only [if_neg hend, hfirst, hrest]
      generalize (if ptrAdd ring.beginPtr (size - (ring.endPtr - ring.readPtr)) > ring.writePtr
        then sizeSub ring.writePtr ring.beginPtr else size - (ring.endPtr - ring.readPtr)) =
        second at hsecond
      split
      · simp only [List.map_cons, List.map_nil, List.sum_cons, List.sum_nil,
          List.mem_singleton, forall_eq]
        omega
      · refine ⟨?_, fun c hc => ?_⟩
        · split <;> split <;> simp <;> omega
        · rcases List.mem_append.mp hc with hc | hc
          all_goals
            split at hc
            · obtain rfl := List.mem_singleton.mp hc
              simp only
              omega
            · cases hc

/-- On a reachable ring a read keeps to the ring exactly when there is nothing to copy or its size
does not wrap the sum with the read pointer. -/
theorem ringbufferRead_inBounds_iff {copyToUser : ℕ → ℕ → Bool} (h : ring.Reachable copyToUser)
    (hsize : size < 2 ^ 64) :
    ReadInBounds copyToUser ring buffer size ↔
      buffer = 0 ∨ ring.readPtr = ring.writePtr ∨ ring.readPtr + size < 2 ^ 64 := by
  have hw := h.wf
  constructor
  · intro hin
    by_contra hout
    simp only [not_or] at hout
    obtain ⟨hbuffer, hne, hwrap⟩ := hout
    have hcopies : ringbufferReadCopies copyToUser ring buffer size =
        [⟨buffer, ring.readPtr, size⟩] :=
      ringbufferReadCopies_of_wrap hw hbuffer hne hsize (Nat.le_of_not_lt hwrap)
    have hblock := hin.inside _ (hcopies ▸ List.mem_singleton_self _)
    have hlt := hw.end_lt
    simp only at hblock
    omega
  · intro hok
    obtain ⟨hread, hbegin, hend⟩ := wf_ringbufferReadWith hw copyToUser hok
    have hcopies : ((ringbufferReadCopies copyToUser ring buffer size).map Copy.size).sum ≤
        ring.queue.length ∧ ∀ c ∈ ringbufferReadCopies copyToUser ring buffer size,
          ring.beginPtr ≤ c.src ∧ c.src + c.size ≤ ring.endPtr := by
      rcases or_assoc.mpr hok with hidle | hlt
      · rw [ringbufferReadCopies_idle hidle]
        simp
      · exact ringbufferReadCopies_of_lt hw hlt
    exact ⟨(ringbufferGetUsedSize_eq hw).symm ▸ hcopies.1, hcopies.2, hbegin ▸ hread.begin_le_read,
      hend ▸ hread.read_le_end⟩

/-! ### The free size and the write -/

/-- A size that wraps the sum with the write pointer passes the comparisons of a write. -/
theorem ringbufferWrite_of_wrap (hw : ring.Wf) (data : List UInt8) (hsize : size < 2 ^ 64)
    (hwrap : 2 ^ 64 ≤ ring.writePtr + size) : (ringbufferWrite ring data size).1 = size := by
  have hwe := hw.write_le_end
  have hlt := hw.end_lt
  have hptr : ptrAdd ring.writePtr size < ring.writePtr := by
    rw [ptrAdd, Nat.mod_eq_sub_mod hwrap, Nat.mod_eq_of_lt (by omega)]
    omega
  rw [ringbufferWrite, if_neg (by omega)]
  by_cases h : ring.readPtr ≤ ring.writePtr
  · simp only [if_pos h, if_pos (show ptrAdd ring.writePtr size ≤ ring.endPtr by omega)]
  · simp only [if_neg h, if_pos (show ptrAdd ring.writePtr size < ring.readPtr by omega)]

/-- A block as long as the free size fits behind the write pointer or not at all. -/
theorem fits_iff_of_eq_free (hw : ring.Wf) (hfree : ring.queue.length + size = ring.bufferSize) :
    ring.Fits size ↔ ring.readPtr = ring.beginPtr := by
  have heq := hw.end_eq
  have hbr := hw.begin_le_read
  have hbw := hw.begin_le_write
  have hre := hw.read_le_end
  have hwe := hw.write_le_end
  have hlen := Ringbuffer.length_queue hw
  rw [Ringbuffer.Fits]
  split at hlen <;> omega

/-- The free size tells whether a write of `size` bytes succeeds, except for a size that is exactly
the free size when the reader is not at the beginning of the buffer. A size that wraps is stored
whatever the free size is. -/
theorem ringbufferGetFreeSize_le_iff_write_iff {copyToUser : ℕ → ℕ → Bool}
    (h : ring.Reachable copyToUser) (data : List UInt8) (hdata : data.length = size)
    (hpos : 1 ≤ size) (hsize : size < 2 ^ 64) :
    (size ≤ ringbufferGetFreeSize ring ↔ (ringbufferWrite ring data size).1 = size) ↔
      (ring.writePtr + size < 2 ^ 64 → size = ringbufferGetFreeSize ring →
        ring.readPtr = ring.beginPtr) ∧
      (2 ^ 64 ≤ ring.writePtr + size → size ≤ ringbufferGetFreeSize ring) := by
  have hw := h.wf
  have hle := Ringbuffer.length_queue_le hw
  rw [ringbufferGetFreeSize_eq hw]
  by_cases hwrap : ring.writePtr + size < 2 ^ 64
  · have hwrite : (ringbufferWrite ring data size).1 = size ↔ ring.Fits size := by
      rcases ringbufferWrite_cases hw hdata hwrap hpos with ⟨hfits, hret, -⟩ | ⟨hnot, hskip⟩
      · exact iff_of_true hret hfits
      · refine iff_of_false ?_ hnot
        rw [hskip]
        simp only
        omega
    have hfits : size ≤ ring.bufferSize - ring.queue.length →
        size ≠ ring.bufferSize - ring.queue.length → ring.Fits size := fun hfree hne =>
      fits_of_lt (by omega)
    rw [hwrite]
    constructor
    · intro hiff
      refine ⟨fun _ hfree => ?_, fun hge => absurd hge (by omega)⟩
      exact (fits_iff_of_eq_free hw (by omega)).mp (hiff.mp (by omega))
    · rintro ⟨hfull, -⟩
      constructor
      · intro hfree
        by_cases heq : size = ring.bufferSize - ring.queue.length
        · exact (fits_iff_of_eq_free hw (by omega)).mpr (hfull hwrap heq)
        · exact hfits hfree heq
      · intro hfit
        have := le_bufferSize_of_fits hw hfit
        omega
  · have hret := ringbufferWrite_of_wrap hw data hsize (Nat.le_of_not_lt hwrap)
    simp only [hret, iff_true, hwrap, false_imp_iff, true_and, Nat.le_of_not_lt hwrap,
      true_imp_iff]

/-- A ring of four bytes that holds the second and the third of three bytes. -/
def fourBytes : Ringbuffer := ⟨[1, 2, 3, 0], 4, 4096, 4100, 4097, 4099, 0, true⟩

theorem reachable_fourBytes (copyToUser : ℕ → ℕ → Bool) : fourBytes.Reachable copyToUser := by
  have hwrite : (RingOp.write [1, 2, 3]).Unwrapped (ringbufferInit 4096 4) := by
    change 4096 + 3 < 2 ^ 64
    norm_num
  have hread : (RingOp.rawread 1 1).Unwrapped
      (ringStep copyToUser (ringbufferInit 4096 4) (.write [1, 2, 3])) :=
    .inr (.inr (by change 4096 + 1 < 2 ^ 64; norm_num))
  exact .step (.step (.init (by norm_num) (by norm_num)) hwrite) hread

/-- A copy that refuses what is larger than an `int`. -/
def intCopy (_dst n : ℕ) : Bool := decide (n < 2 ^ 31)

theorem ringbufferRead_inBounds_iff_fourBytes : ReadInBounds intCopy fourBytes 1 9 :=
  (ringbufferRead_inBounds_iff (reachable_fourBytes intCopy) (by decide)).mpr
    (.inr (.inr (by decide)))

/-- For a count of `2 ^ 64 - 4097` as many bytes are to be copied from a ring that holds two. -/
theorem ringbufferRead_outOfBounds :
    ¬ ∀ (copyToUser : ℕ → ℕ → Bool) (ring : Ringbuffer) (buffer size : ℕ),
      ring.Reachable copyToUser → size < 2 ^ 64 → ReadInBounds copyToUser ring buffer size := by
  intro h
  have hin := h intCopy fourBytes 1 (2 ^ 64 - 4097) (reachable_fourBytes intCopy) (by decide)
  have htotal := hin.total_le
  revert htotal
  decide

theorem ringbufferGetFreeSize_le_iff_write_iff_fourBytes :
    2 ≤ ringbufferGetFreeSize fourBytes ∧ (ringbufferWrite fourBytes [1] 1).1 = 1 := by
  have hone : 1 ≤ ringbufferGetFreeSize fourBytes ↔ (ringbufferWrite fourBytes [1] 1).1 = (1 : ℕ) :=
    (ringbufferGetFreeSize_le_iff_write_iff (reachable_fourBytes intCopy) [1] rfl (by decide)
      (by decide)).mpr ⟨by decide, by decide⟩
  exact ⟨by decide, hone.mp (by decide)⟩

/-- Two bytes are free behind the second byte read, and a write of two is rejected. -/
theorem ringbufferWrite_rejected_of_free :
    ¬ ∀ (copyToUser : ℕ → ℕ → Bool) (ring : Ringbuffer) (data : List UInt8),
      ring.Reachable copyToUser → 1 ≤ data.length → data.length < 2 ^ 64 →
        (data.length ≤ ringbufferGetFreeSize ring ↔
          (ringbufferWrite ring data data.length).1 = data.length) := by
  intro h
  have hiff := h intCopy fourBytes [4, 5] (reachable_fourBytes intCopy) (by decide) (by decide)
  revert hiff
  decide

end

end AptUsbtrx
