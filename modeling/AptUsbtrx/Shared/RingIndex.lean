import AptUsbtrx.Shared.Memory
import Mathlib.Data.Nat.ModEq
import Mathlib.Tactic.Ring

/-! # Positions in a ring of cells

The cells of a stream are numbered in the order in which they pass through a ring of `size`
cells: position `pos` has its place in cell `pos % size`. A reader and a writer each stand at
an offset from `0` to `size`, so that the end of the ring is not its beginning. -/

namespace RingIndex

variable {α : Type*} {size : ℕ}

/-- Two positions less than a round apart have different cells. -/
theorem eq_of_mod_eq (lo : ℕ) {i j : ℕ} (h : i % size = j % size) (hi : lo ≤ i) (hi' : i < lo + size)
    (hj : lo ≤ j) (hj' : j < lo + size) : i = j := by
  rcases Nat.le_total i j with hle | hle
  · have hdvd : size ∣ j - i := (Nat.modEq_iff_dvd' hle).mp h
    have := Nat.eq_zero_of_dvd_of_lt hdvd (by omega)
    omega
  · have hdvd : size ∣ i - j := (Nat.modEq_iff_dvd' hle).mp h.symm
    have := Nat.eq_zero_of_dvd_of_lt hdvd (by omega)
    omega

theorem mod_of_dvd {base o : ℕ} (hdvd : size ∣ base) (ho : o < size) : (base + o) % size = o := by
  obtain ⟨k, rfl⟩ := hdvd
  rw [Nat.mul_add_mod, Nat.mod_eq_of_lt ho]

/-- The cells hold the positions from `lo` to `hi` of the stream. -/
def Holds (size : ℕ) (cells stream : List α) (lo hi : ℕ) : Prop :=
  ∀ pos, lo ≤ pos → pos < hi → cells[pos % size]? = stream[pos]?

theorem Holds.mono {cells stream : List α} {lo hi lo' hi' : ℕ} (h : Holds size cells stream lo hi)
    (hlo : lo ≤ lo') (hhi : hi' ≤ hi) : Holds size cells stream lo' hi' :=
  fun pos hpos hpos' => h pos (hlo.trans hpos) (hpos'.trans_le hhi)

theorem Holds.append {cells stream : List α} {lo hi : ℕ} (h : Holds size cells stream lo hi)
    (hhi : hi ≤ stream.length) (xs : List α) : Holds size cells (stream ++ xs) lo hi := by
  intro pos hpos hpos'
  rw [h pos hpos hpos', List.getElem?_append_left (by omega)]

/-- A store to the cell of a position that is not held yet. -/
theorem Holds.of_eq_off {cells cells' stream : List α} {lo hi : ℕ}
    (h : Holds size cells stream lo hi) (pos : ℕ) (hlo : hi ≤ pos) (hhi : pos < lo + size)
    (hcells : ∀ i, i ≠ pos % size → cells'[i]? = cells[i]?) : Holds size cells' stream lo hi := by
  intro p hp hp'
  rw [hcells, h p hp hp']
  intro heq
  have := eq_of_mod_eq lo heq hp (by omega) (by omega) hhi
  omega

/-- A block of cells that does not reach beyond the end of the ring. -/
theorem Holds.slice_eq {cells stream : List α} {lo hi base o n : ℕ}
    (h : Holds size cells stream lo hi) (hdvd : size ∣ base) (hend : o + n ≤ size)
    (hlo : lo ≤ base + o) (hhi : base + o + n ≤ hi) :
    Memory.slice cells o n = Memory.slice stream (base + o) n := by
  apply List.ext_getElem?
  intro i
  rw [Memory.getElem?_slice, Memory.getElem?_slice]
  by_cases hi : i < n
  · have hpos := h (base + o + i) (by omega) (by omega)
    rw [Nat.add_assoc, mod_of_dvd hdvd (by omega), ← Nat.add_assoc] at hpos
    rw [if_pos hi, if_pos hi, hpos]
  · rw [if_neg hi, if_neg hi]

/-- The reader at offset `r` stands at position `rd` and the writer at offset `w` at `wr`: level
with it or one round ahead. A writer that is ahead is not at offset `0`. -/
def Between (size r w rd wr : ℕ) : Prop :=
  r ≤ size ∧ w ≤ size ∧ ∃ base, size ∣ base ∧ rd = base + r ∧
    (r ≤ w ∧ wr = base + w ∨ 0 < w ∧ w < r ∧ wr = base + size + w)

variable {r r' r'' w w' w'' rd rd' rd'' wr wr' wr'' : ℕ}

theorem between_zero (size : ℕ) : Between size 0 0 0 0 :=
  ⟨Nat.zero_le _, Nat.zero_le _, 0, Nat.dvd_zero _, rfl, .inl ⟨Nat.le_refl _, rfl⟩⟩

theorem Between.le (h : Between size r w rd wr) : rd ≤ wr := by
  obtain ⟨_, _, base, _, _, h⟩ := h
  omega

theorem Between.le_add (h : Between size r w rd wr) : wr ≤ rd + size := by
  obtain ⟨_, _, base, _, _, h⟩ := h
  omega

/-- What lies between the two, as the offsets tell it. -/
theorem Between.sub_eq (h : Between size r w rd wr) :
    wr - rd = if r ≤ w then w - r else (size - r) + w := by
  obtain ⟨_, _, base, _, _, h⟩ := h
  split <;> omega

/-- The writer stands at its offset in some round. -/
theorem Between.exists_base (h : Between size r w rd wr) : ∃ base, size ∣ base ∧ wr = base + w := by
  obtain ⟨-, -, base, hdvd, -, ⟨-, hwr⟩ | ⟨-, -, hwr⟩⟩ := h
  · exact ⟨base, hdvd, hwr⟩
  · exact ⟨base + size, Nat.dvd_add hdvd (Nat.dvd_refl _), hwr⟩

/-- A reader that planned its advance against an old offset `w'` of the writer. -/
theorem Between.reader (h : Between size r w rd wr) (hold : Between size r w' rd wr')
    (hnew : Between size r'' w' rd'' wr') (hle : wr' ≤ wr) (hr : rd < rd'') :
    Between size r'' w rd'' wr := by
  obtain ⟨hr₁, hw₁, base, hdvd, hrd, h⟩ := h
  obtain ⟨-, hw₂, base₂, hdvd₂, hrd₂, hold⟩ := hold
  obtain ⟨hr₃, -, base₃, hdvd₃, hrd₃, hnew⟩ := hnew
  exact ⟨hr₃, hw₁, base₃, hdvd₃, hrd₃, by omega⟩

/-- A writer that planned its advance against an old offset `r'` of the reader. -/
theorem Between.writer (h : Between size r w rd wr) (hold : Between size r' w rd' wr)
    (hnew : Between size r' w'' rd' wr'') (hr : rd' < rd ∨ r' = r) (hle : rd' ≤ rd)
    (hw : wr ≤ wr'') : Between size r w'' rd wr'' := by
  obtain ⟨hr₁, hw₁, base, hdvd, hrd, h⟩ := h
  obtain ⟨hr₂, -, base₂, hdvd₂, hrd₂, hold⟩ := hold
  obtain ⟨-, hw₃, base₃, hdvd₃, hrd₃, hnew⟩ := hnew
  exact ⟨hr₁, hw₃, base, hdvd, hrd, by omega⟩

end RingIndex
