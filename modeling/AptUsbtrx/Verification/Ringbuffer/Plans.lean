import AptUsbtrx.Model.RingCalls
import AptUsbtrx.Shared.RingIndex
import AptUsbtrx.Verification.Ringbuffer.Operations

/-! # What a call on the ring buffer is about to do

With the pointers at known positions of the stream, a plan names the cells of the positions
behind the writer or the reader, one for each byte. -/

namespace AptUsbtrx

open Memory RingIndex

/-- The pointers of a reader and a writer, with their positions in the stream. -/
structure Stand (beginPtr size pread pwrite rd wr : ℕ) : Prop where
  begin_le_read : beginPtr ≤ pread
  begin_le_write : beginPtr ≤ pwrite
  between : Between size (pread - beginPtr) (pwrite - beginPtr) rd wr

theorem mem_memcpyStores {dst : ℕ} {src : List UInt8} {e : ℕ × UInt8} :
    e ∈ memcpyStores dst src ↔ ∃ i byte, src[i]? = some byte ∧ e = (ptrAdd dst i, byte) := by
  rw [memcpyStores, List.mem_mapIdx]
  constructor
  · rintro ⟨i, hi, rfl⟩
    exact ⟨i, src[i], List.getElem?_eq_getElem hi, rfl⟩
  · rintro ⟨i, byte, hbyte, rfl⟩
    obtain ⟨hi, rfl⟩ := List.getElem?_eq_some_iff.mp hbyte
    exact ⟨i, hi, rfl⟩

theorem mem_memcpyLoads {dst src n : ℕ} {e : ℕ × ℕ} :
    e ∈ memcpyLoads dst src n ↔ ∃ i, i < n ∧ e = (dst + i, ptrAdd src i) := by
  simp only [memcpyLoads, List.mem_map, List.mem_range, eq_comm]

section

variable {beginPtr size pread pwrite rd wr : ℕ}

theorem Stand.read_le (h : Stand beginPtr size pread pwrite rd wr) : pread ≤ beginPtr + size := by
  have := h.between.1
  have := h.begin_le_read
  omega

theorem Stand.write_le (h : Stand beginPtr size pread pwrite rd wr) : pwrite ≤ beginPtr + size := by
  have := h.between.2.1
  have := h.begin_le_write
  omega

theorem Stand.sub_eq (h : Stand beginPtr size pread pwrite rd wr) :
    wr - rd = if pread ≤ pwrite then pwrite - pread
      else (beginPtr + size - pread) + (pwrite - beginPtr) := by
  have hsub := h.between.sub_eq
  have := h.begin_le_read
  have := h.begin_le_write
  have := h.read_le
  split at hsub <;> split <;> omega

end

/-- The read pointer that was planned against an old write pointer. -/
theorem Stand.reader {beginPtr size pread pread' pwrite pwrite' rd rd' wr old : ℕ}
    (h : Stand beginPtr size pread pwrite rd wr) (hold : Stand beginPtr size pread pwrite' rd old)
    (hnew : Stand beginPtr size pread' pwrite' rd' old) (hle : old ≤ wr) (hlt : rd < rd') :
    Stand beginPtr size pread' pwrite rd' wr :=
  ⟨hnew.begin_le_read, h.begin_le_write, h.between.reader hold.between hnew.between hle hlt⟩

/-- The write pointer that was planned against an old read pointer. -/
theorem Stand.writer {beginPtr size pread pread' pwrite pwrite' rd wr wr' old : ℕ}
    (h : Stand beginPtr size pread pwrite rd wr) (hold : Stand beginPtr size pread' pwrite old wr)
    (hnew : Stand beginPtr size pread' pwrite' old wr') (hread : old < rd ∨ pread' = pread)
    (hle : old ≤ rd) (hle' : wr ≤ wr') : Stand beginPtr size pread pwrite' rd wr' :=
  ⟨h.begin_le_read, hnew.begin_le_write,
    h.between.writer hold.between hnew.between (hread.imp_right fun heq => by rw [heq]) hle hle'⟩

section Copies

variable {beginPtr size base o : ℕ} (hlt : beginPtr + size < 2 ^ 64) (hdvd : size ∣ base)

include hlt hdvd

/-- The address of the byte `i` of a copy to the offset `o` that stays inside the buffer. -/
theorem ptrAdd_cell {i : ℕ} (h : o + i < size) :
    ptrAdd (beginPtr + o) i = beginPtr + (base + o + i) % size := by
  rw [ptrAdd_of_lt (by omega), Nat.add_assoc base, mod_of_dvd hdvd h, Nat.add_assoc]

theorem mem_memcpyStores_cell (src : List UInt8) (h : o + src.length ≤ size) {e : ℕ × UInt8} :
    e ∈ memcpyStores (beginPtr + o) src ↔
      ∃ i byte, src[i]? = some byte ∧ e = (beginPtr + (base + o + i) % size, byte) := by
  rw [mem_memcpyStores]
  refine exists_congr fun i => exists_congr fun byte => and_congr_right fun hbyte => ?_
  have hi := (List.getElem?_eq_some_iff.mp hbyte).1
  rw [ptrAdd_cell hlt hdvd (by omega)]

theorem mem_memcpyLoads_cell (dst : ℕ) {n : ℕ} (h : o + n ≤ size) {e : ℕ × ℕ} :
    e ∈ memcpyLoads dst (beginPtr + o) n ↔
      ∃ i, i < n ∧ e = (dst + i, beginPtr + (base + o + i) % size) := by
  rw [mem_memcpyLoads]
  refine exists_congr fun i => and_congr_right fun hi => ?_
  rw [ptrAdd_cell hlt hdvd (by omega)]

end Copies

/-- The plan of a write that is accepted: it stores each byte in the cell of its position. -/
structure Accepting (beginPtr size pread rd wr : ℕ) (data : List UInt8) (plan : WritePlan) :
    Prop where
  skipCount : plan.skipCount = 0
  stand : Stand beginPtr size pread plan.pwrite rd (wr + data.length)
  stores : ∀ e, e ∈ plan.stores ↔
    ∃ i byte, data[i]? = some byte ∧ e = (beginPtr + (wr + i) % size, byte)

/-- The plan of a write that is rejected. -/
structure Rejecting (size pwrite rd wr : ℕ) (data : List UInt8) (plan : WritePlan) : Prop where
  plan_eq : plan = ⟨[], pwrite, data.length⟩
  full : size ≤ (wr - rd) + data.length

/-- The plan of a read: it loads each byte from the cell of its position. -/
structure Reading (beginPtr size pwrite rd wr : ℕ) (n : ℕ) (plan : ReadPlan) : Prop where
  readSize : plan.readSize = min n (wr - rd)
  length_loads : plan.loads.length = plan.readSize
  stand : Stand beginPtr size plan.pread pwrite (rd + plan.readSize) wr
  loads : ∀ e, e ∈ plan.loads ↔
    ∃ i, i < plan.readSize ∧ e = (i, beginPtr + (rd + i) % size)

section

variable {beginPtr size pread pwrite rd wr : ℕ}

/-- A copy that does not reach beyond the end. -/
theorem Stand.accepting (h : Stand beginPtr size pread pwrite rd wr) {data : List UInt8}
    (hlt : beginPtr + size < 2 ^ 64) (hend : pwrite + data.length ≤ beginPtr + size)
    (hread : pread ≤ pwrite ∨ pwrite + data.length < pread) :
    Accepting beginPtr size pread rd wr data
      ⟨memcpyStores pwrite data, pwrite + data.length, 0⟩ where
  skipCount := rfl
  stand := by
    obtain ⟨hread', hwrite, hr, hw, base, hdvd, hrd, hwr⟩ := h
    have hpwrite : beginPtr ≤ pwrite + data.length := by omega
    exact ⟨hread', hpwrite, hr, by dsimp only; omega, base, hdvd, hrd, by dsimp only; omega⟩
  stores e := by
    obtain ⟨base, hdvd, hwr⟩ := h.between.exists_base
    have hpwrite := Nat.add_sub_cancel' h.begin_le_write
    rw [← hpwrite, mem_memcpyStores_cell hlt hdvd data (by omega), ← hwr]

/-- A copy in two parts, up to the end and from the beginning on. -/
theorem Stand.accepting_wrap (h : Stand beginPtr size pread pwrite rd wr) {data : List UInt8}
    {first : ℕ} (hlt : beginPtr + size < 2 ^ 64) (hfirst : pwrite + first = beginPtr + size)
    (hle : pread ≤ pwrite) (hdata : first < data.length)
    (hread : beginPtr + (data.length - first) < pread) :
    Accepting beginPtr size pread rd wr data
      ⟨memcpyStores pwrite (data.take first) ++
        memcpyStores beginPtr (slice data first (data.length - first)),
        beginPtr + (data.length - first), 0⟩ where
  skipCount := rfl
  stand := by
    obtain ⟨hread', hwrite, hr, hw, base, hdvd, hrd, hwr⟩ := h
    have hpwrite : beginPtr ≤ beginPtr + (data.length - first) := by omega
    exact ⟨hread', hpwrite, hr, by dsimp only; omega, base, hdvd, hrd, by dsimp only; omega⟩
  stores e := by
    have hpread := h.read_le
    obtain ⟨base, hdvd, hwr⟩ := h.between.exists_base
    have hpwrite := Nat.add_sub_cancel' h.begin_le_write
    have hdvd' : size ∣ base + size := Nat.dvd_add hdvd (Nat.dvd_refl _)
    have hfront := mem_memcpyStores_cell (e := e) (o := pwrite - beginPtr) hlt hdvd
      (data.take first) (by rw [List.length_take]; omega)
    have hback := mem_memcpyStores_cell (e := e) (o := 0) hlt hdvd'
      (slice data first (data.length - first)) (by rw [length_slice]; omega)
    rw [hpwrite, ← hwr] at hfront
    rw [Nat.add_zero] at hback
    rw [List.mem_append, hfront, hback]
    constructor
    · rintro (⟨i, byte, hbyte, he⟩ | ⟨i, byte, hbyte, he⟩)
      · have hi := (List.getElem?_eq_some_iff.mp hbyte).1
        rw [List.getElem?_take_of_lt (by simp at hi; omega)] at hbyte
        exact ⟨i, byte, hbyte, he⟩
      · rw [getElem?_slice] at hbyte
        split at hbyte
        · refine ⟨first + i, byte, hbyte, ?_⟩
          rw [he, show wr + (first + i) = base + size + 0 + i by omega]
        · cases hbyte
    · rintro ⟨i, byte, hbyte, he⟩
      have hi := (List.getElem?_eq_some_iff.mp hbyte).1
      by_cases hcase : i < first
      · exact .inl ⟨i, byte, by rw [List.getElem?_take_of_lt hcase, hbyte], he⟩
      · refine .inr ⟨i - first, byte, ?_, ?_⟩
        · rw [getElem?_slice, if_pos (by omega), Nat.add_sub_cancel' (by omega), hbyte]
        · rw [he, show wr + i = base + size + 0 + (i - first) by omega]

theorem writePlan_spec (h : Stand beginPtr size pread pwrite rd wr) {data : List UInt8}
    (hdata : data ≠ []) (hlt : beginPtr + size + data.length < 2 ^ 64) :
    Accepting beginPtr size pread rd wr data
        (writePlan beginPtr (beginPtr + size) pread pwrite data) ∨
      Rejecting size pwrite rd wr data
        (writePlan beginPtr (beginPtr + size) pread pwrite data) := by
  have hpos := List.length_pos_iff.mpr hdata
  have hread := h.read_le
  have hread' := h.begin_le_read
  have hwrite := h.write_le
  have hwrite' := h.begin_le_write
  have hsub := h.sub_eq
  have hsum : ptrAdd pwrite data.length = pwrite + data.length := ptrAdd_of_lt (by omega)
  have hfirst : sizeSub (beginPtr + size) pwrite = beginPtr + size - pwrite :=
    sizeSub_of_le hwrite (by omega)
  simp only [writePlan, hsum, hfirst]
  by_cases hle : pread ≤ pwrite
  · rw [if_pos hle] at hsub
    rw [if_pos hle]
    by_cases hend : pwrite + data.length ≤ beginPtr + size
    · rw [if_pos hend]
      exact .inl (h.accepting (by omega) hend (.inl hle))
    · have hsecond : sizeSub data.length (beginPtr + size - pwrite) =
          data.length - (beginPtr + size - pwrite) := sizeSub_of_le (by omega) (by omega)
      have hwrap : ptrAdd beginPtr (data.length - (beginPtr + size - pwrite)) =
          beginPtr + (data.length - (beginPtr + size - pwrite)) := ptrAdd_of_lt (by omega)
      rw [if_neg hend, hsecond, hwrap]
      by_cases hroom : beginPtr + (data.length - (beginPtr + size - pwrite)) < pread
      · rw [if_pos hroom]
        exact .inl (h.accepting_wrap (by omega) (by omega) hle (by omega) hroom)
      · rw [if_neg hroom]
        exact .inr ⟨rfl, by omega⟩
  · rw [if_neg hle] at hsub
    rw [if_neg hle]
    by_cases hroom : pwrite + data.length < pread
    · rw [if_pos hroom]
      exact .inl (h.accepting (by omega) (by omega) (.inr hroom))
    · rw [if_neg hroom]
      exact .inr ⟨rfl, by omega⟩

/-- A copy from the read pointer on that does not reach beyond the end. -/
theorem Stand.reading (h : Stand beginPtr size pread pwrite rd wr) {n m : ℕ}
    (hlt : beginPtr + size < 2 ^ 64) (hm : m = min n (wr - rd))
    (hend : pread + m ≤ beginPtr + size) (hwrite : pread ≤ pwrite → pread + m ≤ pwrite) :
    Reading beginPtr size pwrite rd wr n ⟨memcpyLoads 0 pread m, pread + m, m⟩ where
  readSize := hm
  length_loads := by simp [memcpyLoads]
  stand := by
    obtain ⟨hread', hwrite', hr, hw, base, hdvd, hrd, hwr⟩ := h
    have hpread : beginPtr ≤ pread + m := by omega
    exact ⟨hpread, hwrite', by dsimp only; omega, hw, base, hdvd, by dsimp only; omega,
      by dsimp only; omega⟩
  loads e := by
    obtain ⟨-, -, base, hdvd, hrd, -⟩ := h.between
    have hpread := Nat.add_sub_cancel' h.begin_le_read
    rw [← hpread, mem_memcpyLoads_cell hlt hdvd 0 (by omega), ← hrd]
    simp only [Nat.zero_add]

/-- A copy in two parts, up to the end and from the beginning on. -/
theorem Stand.reading_wrap (h : Stand beginPtr size pread pwrite rd wr) {n first second : ℕ}
    (hlt : beginPtr + size < 2 ^ 64) (hm : first + second = min n (wr - rd))
    (hfirst : pread + first = beginPtr + size) (hpos : 0 < second) (hlt' : pwrite < pread)
    (hwrite : beginPtr + second ≤ pwrite) :
    Reading beginPtr size pwrite rd wr n
      ⟨memcpyLoads 0 pread first ++ memcpyLoads first beginPtr second, beginPtr + second,
        first + second⟩ where
  readSize := hm
  length_loads := by simp [memcpyLoads]
  stand := by
    obtain ⟨hread', hwrite', hr, hw, base, hdvd, hrd, hwr⟩ := h
    have hpread : beginPtr ≤ beginPtr + second := by omega
    exact ⟨hpread, hwrite', by dsimp only; omega, hw, base + size,
      Nat.dvd_add hdvd (Nat.dvd_refl _), by dsimp only; omega, by dsimp only; omega⟩
  loads e := by
    have hread := h.read_le
    obtain ⟨-, -, base, hdvd, hrd, -⟩ := h.between
    have hpread := Nat.add_sub_cancel' h.begin_le_read
    have hdvd' : size ∣ base + size := Nat.dvd_add hdvd (Nat.dvd_refl _)
    have hfront := mem_memcpyLoads_cell (e := e) (o := pread - beginPtr) (n := first) hlt hdvd 0
      (by omega)
    have hback := mem_memcpyLoads_cell (e := e) (o := 0) (n := second) hlt hdvd' first
      (by omega)
    rw [hpread, ← hrd] at hfront
    rw [Nat.add_zero] at hback
    rw [List.mem_append, hfront, hback]
    constructor
    · rintro (⟨i, hi, he⟩ | ⟨i, hi, he⟩)
      · exact ⟨i, by dsimp only; omega, by rw [he, Nat.zero_add]⟩
      · refine ⟨first + i, by dsimp only; omega, ?_⟩
        rw [he, show rd + (first + i) = base + size + 0 + i by omega]
    · rintro ⟨i, hi, he⟩
      dsimp only at hi
      by_cases hcase : i < first
      · exact .inl ⟨i, hcase, by rw [he, Nat.zero_add]⟩
      · refine .inr ⟨i - first, by omega, ?_⟩
        rw [he, Nat.add_sub_cancel' (by omega),
          show rd + i = base + size + 0 + (i - first) by omega]

theorem readPlan_spec (h : Stand beginPtr size pread pwrite rd wr) {n : ℕ} (hn : 0 < n)
    (hlt : beginPtr + size + n < 2 ^ 64) :
    Reading beginPtr size pwrite rd wr n
      (readPlan beginPtr (beginPtr + size) pread pwrite n) := by
  have hread := h.read_le
  have hread' := h.begin_le_read
  have hwrite := h.write_le
  have hwrite' := h.begin_le_write
  have hsub := h.sub_eq
  have hsum : ptrAdd pread n = pread + n := ptrAdd_of_lt (by omega)
  simp only [readPlan, hsum]
  by_cases hlt₁ : pread < pwrite
  · rw [if_pos (by omega)] at hsub
    have hdiff : sizeSub pwrite pread = pwrite - pread := sizeSub_of_le (by omega) (by omega)
    have htodo : (if pread + n ≤ pwrite then n else sizeSub pwrite pread) = min n (wr - rd) := by
      rw [hdiff]
      split <;> omega
    rw [if_pos hlt₁, htodo, ptrAdd_of_lt (by omega)]
    exact h.reading (by omega) rfl (by omega) (by omega)
  · rw [if_neg hlt₁]
    by_cases hlt₂ : pread > pwrite
    · rw [if_neg (by omega)] at hsub
      rw [if_pos hlt₂]
      by_cases hend : pread + n ≤ beginPtr + size
      · rw [if_pos hend]
        exact h.reading (by omega) (by omega) hend (by omega)
      · have hfirst : sizeSub (beginPtr + size) pread = beginPtr + size - pread :=
          sizeSub_of_le hread (by omega)
        have hsecond : sizeSub n (beginPtr + size - pread) = n - (beginPtr + size - pread) :=
          sizeSub_of_le (by omega) (by omega)
        have hdiff : sizeSub pwrite beginPtr = pwrite - beginPtr :=
          sizeSub_of_le hwrite' (by omega)
        rw [if_neg hend, hfirst, hsecond, hdiff, ptrAdd_of_lt (by omega)]
        have hmin : (if beginPtr + (n - (beginPtr + size - pread)) > pwrite then
            pwrite - beginPtr else n - (beginPtr + size - pread)) =
            min (n - (beginPtr + size - pread)) (pwrite - beginPtr) := by
          split <;> omega
        have hpos : 0 < pwrite - beginPtr := by
          obtain ⟨-, -, base, -, -, hb | ⟨hb, -, -⟩⟩ := h.between <;> omega
        rw [hmin, ptrAdd_of_lt (by omega), ptrAdd_of_lt (by omega)]
        exact h.reading_wrap (by omega) (by omega) (by omega) (by omega) hlt₂ (by omega)
    · rw [if_neg hlt₂]
      rw [if_pos (by omega)] at hsub
      have hempty : wr - rd = 0 := by omega
      exact h.reading (m := 0) (by omega) (by omega) (by omega) (by omega)

end

end AptUsbtrx
