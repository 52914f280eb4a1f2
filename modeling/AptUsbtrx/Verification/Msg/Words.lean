import AptUsbtrx.Model.Ep1Cf02a
import AptUsbtrx.Shared.ByteOrder

/-! # Words in little-endian order

The numbers that the decoders make of two and of four bytes. -/

namespace AptUsbtrx.Ep1Cf02a

open Memory ByteOrder

theorem or_shiftLeft {low k : ℕ} (h : low < 2 ^ k) (high : ℕ) :
    low ||| high <<< k = low + 2 ^ k * high := by
  rw [Nat.or_comm, ← Nat.shiftLeft_add_eq_or_of_lt h, Nat.shiftLeft_eq, Nat.mul_comm, Nat.add_comm]

theorem le16_eq (data : List UInt8) (n : ℕ) :
    le16 data n = (byteAt data n).toNat + 2 ^ 8 * (byteAt data (n + 1)).toNat := by
  rw [le16, or_shiftLeft (byteAt data n).toNat_lt]

theorem le16_lt (data : List UInt8) (n : ℕ) : le16 data n < 2 ^ 16 := by
  have hlow := (byteAt data n).toNat_lt
  have hhigh := (byteAt data (n + 1)).toNat_lt
  rw [le16_eq]
  omega

theorem le32_eq (data : List UInt8) (n : ℕ) :
    le32 data n = le16 data n + 2 ^ 16 * le16 data (n + 2) := by
  have hlow := le16_lt data n
  have hthird := (byteAt data (n + 2)).toNat_lt
  have hthree : le16 data n ||| (byteAt data (n + 2)).toNat <<< 16 =
      le16 data n + 2 ^ 16 * (byteAt data (n + 2)).toNat := or_shiftLeft hlow _
  rw [le32, hthree, or_shiftLeft (by omega), le16_eq data (n + 2)]
  ring

theorem le32_lt (data : List UInt8) (n : ℕ) : le32 data n < 2 ^ 32 := by
  have hlow := le16_lt data n
  have hhigh := le16_lt data (n + 2)
  rw [le32_eq]
  omega

/-- Four bytes that are those of `v`. -/
theorem le32_of_bytes {data : List UInt8} {n v : ℕ} (hv : v < 2 ^ 32)
    (h : ∀ i < 4, (byteAt data (n + i)).toNat = v / 2 ^ (8 * i) % 2 ^ 8) : le32 data n = v := by
  have h0 := h 0 (by decide)
  have h1 := h 1 (by decide)
  have h2 := h 2 (by decide)
  have h3 := h 3 (by decide)
  rw [Nat.add_zero] at h0
  rw [le32_eq, le16_eq, le16_eq, h0, h1, h2, h3]
  omega

/-! ### Words as blocks -/

theorem ofLittleEndian_slice_succ (data : List UInt8) (n width : ℕ) :
    ofLittleEndian (slice data n (width + 1)) =
      (byteAt data n).toNat + 256 * ofLittleEndian (slice data (n + 1) width) := by
  rcases Nat.lt_or_ge n data.length with h | h
  · rw [slice_eq_cons h, ofLittleEndian_cons, byteAt, List.getD_eq_getElem?_getD,
      List.getElem?_eq_getElem h, Option.getD_some]
  · rw [slice, slice, List.drop_of_length_le h, List.drop_of_length_le (by omega),
      byteAt_of_length_le h]
    simp

theorem ofLittleEndian_slice_add (data : List UInt8) (n low high : ℕ) :
    ofLittleEndian (slice data n (low + high)) =
      ofLittleEndian (slice data n low) + 256 ^ low * ofLittleEndian (slice data (n + low) high) := by
  induction low generalizing n with
  | zero => simp
  | succ low ih =>
      rw [show low + 1 + high = low + high + 1 by omega, ofLittleEndian_slice_succ,
        ofLittleEndian_slice_succ, ih, show n + 1 + low = n + (low + 1) by omega]
      ring

theorem le16_eq_ofLittleEndian (data : List UInt8) (n : ℕ) :
    le16 data n = ofLittleEndian (slice data n 2) := by
  rw [le16_eq, ofLittleEndian_slice_succ, ofLittleEndian_slice_succ, slice_zero_length,
    ofLittleEndian_nil]
  ring

theorem le32_eq_ofLittleEndian (data : List UInt8) (n : ℕ) :
    le32 data n = ofLittleEndian (slice data n 4) := by
  rw [le32_eq, le16_eq_ofLittleEndian, le16_eq_ofLittleEndian]
  exact (ofLittleEndian_slice_add data n 2 2).symm

theorem le64_eq_ofLittleEndian (data : List UInt8) (n : ℕ) :
    le64 data n = ofLittleEndian (slice data n 8) := by
  rw [le64, or_shiftLeft (le32_lt data n), le32_eq_ofLittleEndian, le32_eq_ofLittleEndian]
  exact (ofLittleEndian_slice_add data n 4 4).symm

theorem ofLittleEndian_slice_littleEndian (front tail : List UInt8) (width : ℕ) (x : ℤ) :
    (ofLittleEndian (slice (front ++ littleEndian width x ++ tail) front.length width) : ℤ) =
      x % 256 ^ width := by
  have hslice := slice_append_append front (littleEndian width x) tail
  rw [length_littleEndian] at hslice
  rw [hslice, ofLittleEndian_littleEndian]

/-- A number of 16 bits is read as it was written. -/
theorem le16_littleEndian (front tail : List UInt8) {v : ℕ} (hv : v < 2 ^ 16) :
    le16 (front ++ littleEndian 2 v ++ tail) front.length = v := by
  have hvalue := ofLittleEndian_slice_littleEndian front tail 2 v
  rw [le16_eq_ofLittleEndian]
  omega

end AptUsbtrx.Ep1Cf02a
