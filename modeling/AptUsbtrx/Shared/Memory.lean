import Mathlib.Data.List.Basic
import Mathlib.Tactic.Ring

/-! # Fixed-size memory areas

A memory area is a list of cells. `slice` reads a block, `overwrite` copies a block
into the area and never changes its size. -/

namespace Memory

variable {α : Type*}

/-- The block of `len` cells starting at `off`. -/
def slice (xs : List α) (off len : ℕ) : List α :=
  (xs.drop off).take len

/-- `xs` with the block `ys` copied to offset `off`. Cells of `ys` beyond the end of
`xs` are dropped. -/
def overwrite (xs : List α) (off : ℕ) (ys : List α) : List α :=
  (xs.take off ++ ys ++ xs.drop (off + ys.length)).take xs.length

@[simp] theorem slice_zero_length (xs : List α) (off : ℕ) : slice xs off 0 = [] := by
  simp [slice]

theorem slice_zero (xs : List α) (len : ℕ) : slice xs 0 len = xs.take len := by
  simp [slice]

theorem length_slice (xs : List α) (off len : ℕ) :
    (slice xs off len).length = min len (xs.length - off) := by
  simp [slice]

theorem length_slice_of_le {xs : List α} {off len : ℕ} (h : off + len ≤ xs.length) :
    (slice xs off len).length = len := by
  rw [length_slice]
  omega

theorem getElem?_slice (xs : List α) (off len i : ℕ) :
    (slice xs off len)[i]? = if i < len then xs[off + i]? else none := by
  simp [slice, List.getElem?_take, List.getElem?_drop]

theorem slice_append_slice (xs : List α) (off a b : ℕ) :
    slice xs off a ++ slice xs (off + a) b = slice xs off (a + b) := by
  simp only [slice, List.take_add, List.drop_drop]

theorem take_slice (xs : List α) (off len k : ℕ) :
    (slice xs off len).take k = slice xs off (min k len) := by
  simp [slice, List.take_take]

theorem drop_slice (xs : List α) (off len k : ℕ) :
    (slice xs off len).drop k = slice xs (off + k) (len - k) := by
  simp [slice, List.drop_take, List.drop_drop]

theorem slice_take {xs : List α} {off len n : ℕ} (h : off + len ≤ n) :
    slice (xs.take n) off len = slice xs off len := by
  rw [slice, slice, List.drop_take, List.take_take, Nat.min_eq_left (by omega)]

/-- The block in the middle. -/
theorem slice_append_append (xs ys zs : List α) :
    slice (xs ++ ys ++ zs) xs.length ys.length = ys := by
  rw [slice, List.append_assoc, List.drop_left, List.take_left]

theorem slice_eq_cons {xs : List α} {off len : ℕ} (h : off < xs.length) :
    slice xs off (len + 1) = xs[off] :: slice xs (off + 1) len := by
  rw [slice, List.drop_eq_getElem_cons h, List.take_succ_cons, slice]

@[simp] theorem length_overwrite (xs : List α) (off : ℕ) (ys : List α) :
    (overwrite xs off ys).length = xs.length := by
  simp only [overwrite, List.length_take, List.length_append, List.length_drop]
  omega

/-- An overwritten area, cell by cell. -/
theorem getElem?_overwrite (xs : List α) (off : ℕ) (ys : List α) (i : ℕ) :
    (overwrite xs off ys)[i]? =
      if off ≤ i ∧ i < off + ys.length ∧ i < xs.length then ys[i - off]? else xs[i]? := by
  by_cases hi : i < xs.length
  · rw [overwrite, List.getElem?_take_of_lt hi]
    by_cases hlo : i < off
    · rw [List.getElem?_append_left (by simp; omega), List.getElem?_append_left (by simp; omega),
        List.getElem?_take_of_lt hlo, if_neg (by omega)]
    · have hoff : (xs.take off).length = off := by simp; omega
      by_cases hmid : i < off + ys.length
      · rw [List.getElem?_append_left (by simp; omega), List.getElem?_append_right (by omega),
          hoff, if_pos ⟨by omega, hmid, hi⟩]
      · rw [List.getElem?_append_right (by simp; omega), List.length_append, hoff,
          List.getElem?_drop, if_neg (by omega)]
        congr 1
        omega
  · rw [List.getElem?_eq_none (by simp; omega), if_neg (by omega),
      List.getElem?_eq_none (by omega)]

theorem slice_overwrite_self {xs : List α} {off : ℕ} {ys : List α}
    (h : off + ys.length ≤ xs.length) : slice (overwrite xs off ys) off ys.length = ys := by
  apply List.ext_getElem?
  intro i
  rw [getElem?_slice, getElem?_overwrite]
  by_cases hi : i < ys.length
  · rw [if_pos hi, if_pos (by omega), Nat.add_sub_cancel_left]
  · rw [if_neg hi, List.getElem?_eq_none (by omega)]

/-- A block that the copy does not touch is unchanged. -/
theorem slice_overwrite_of_disjoint {xs : List α} {off off' len : ℕ} {ys : List α}
    (h : off' + len ≤ off ∨ off + ys.length ≤ off') :
    slice (overwrite xs off ys) off' len = slice xs off' len := by
  apply List.ext_getElem?
  intro i
  rw [getElem?_slice, getElem?_slice, getElem?_overwrite]
  by_cases hi : i < len
  · rw [if_pos hi, if_pos hi, if_neg (by omega)]
  · rw [if_neg hi, if_neg hi]

theorem take_overwrite_zero {xs ys : List α} (h : ys.length ≤ xs.length) :
    (overwrite xs 0 ys).take ys.length = ys := by
  rw [← slice_zero]
  exact slice_overwrite_self (by omega)

/-- A block as long as the area replaces it. -/
theorem overwrite_eq_self {xs ys : List α} (h : ys.length = xs.length) : overwrite xs 0 ys = ys := by
  have htake := take_overwrite_zero (Nat.le_of_eq h)
  rwa [h, ← length_overwrite xs 0 ys, List.take_length] at htake

theorem take_overwrite_append {xs : List α} {off : ℕ} {ys : List α}
    (h : off + ys.length ≤ xs.length) :
    (overwrite xs off ys).take (off + ys.length) = xs.take off ++ ys := by
  rw [← slice_zero, ← slice_append_slice, Nat.zero_add, slice_overwrite_self h,
    slice_overwrite_of_disjoint (by omega), slice_zero]

theorem drop_overwrite_zero (xs ys : List α) :
    (overwrite xs 0 ys).drop ys.length = xs.drop ys.length := by
  apply List.ext_getElem?
  intro i
  rw [List.getElem?_drop, List.getElem?_drop, getElem?_overwrite, if_neg (by omega)]

theorem overwrite_append (xs : List α) (off : ℕ) (ys zs : List α) :
    overwrite (overwrite xs off ys) (off + ys.length) zs = overwrite xs off (ys ++ zs) := by
  apply List.ext_getElem?
  intro i
  simp only [getElem?_overwrite, length_overwrite, List.length_append]
  by_cases hi : i < off + ys.length
  · rw [if_neg (by omega)]
    by_cases hin : off ≤ i ∧ i < xs.length
    · rw [if_pos (by omega), if_pos (by omega), List.getElem?_append_left (by omega)]
    · rw [if_neg (by omega), if_neg (by omega)]
  · rw [if_neg (by omega : ¬ (off ≤ i ∧ i < off + ys.length ∧ i < xs.length))]
    by_cases hin : i < off + ys.length + zs.length ∧ i < xs.length
    · rw [if_pos (by omega), if_pos (by omega), List.getElem?_append_right (by omega)]
      congr 1
      omega
    · rw [if_neg (by omega), if_neg (by omega)]

/-- Copies to different cells in either order. -/
theorem overwrite_comm (xs : List α) {a b : ℕ} (h : a ≠ b) (x y : α) :
    overwrite (overwrite xs a [x]) b [y] = overwrite (overwrite xs b [y]) a [x] := by
  apply List.ext_getElem?
  intro i
  simp only [getElem?_overwrite, length_overwrite, List.length_singleton]
  by_cases hb : b ≤ i ∧ i < b + 1 ∧ i < xs.length
  · rw [if_pos hb, if_neg (by omega), if_pos hb]
  · rw [if_neg hb, if_neg hb]

end Memory
