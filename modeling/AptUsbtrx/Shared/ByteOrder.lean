import AptUsbtrx.Shared.Memory
import Mathlib.Data.Nat.Digits.Defs

/-! # Byte order

Numbers as blocks of bytes, and the fields of a record that are kept as such blocks. -/

namespace ByteOrder

open Memory

/-- The number with these bytes, the lowest one in front. -/
def ofLittleEndian (bytes : List UInt8) : ℕ := Nat.ofDigits 256 (bytes.map UInt8.toNat)

/-- The number with these bytes, the highest one in front. -/
def ofBigEndian (bytes : List UInt8) : ℕ := ofLittleEndian bytes.reverse

/-- The lowest bytes of a number in two's complement, the lowest one in front: the byte `i` is that
of `x >> 8 * i`. -/
def littleEndian : ℕ → ℤ → List UInt8
  | 0, _ => []
  | width + 1, x => UInt8.ofInt x :: littleEndian width (x / 2 ^ 8)

theorem toNat_ofInt (x : ℤ) : (UInt8.ofInt x).toNat = (x % 2 ^ 8).toNat := by
  have hlt : (x % 2 ^ 8).toNat < 2 ^ 8 := by omega
  rw [UInt8.ofInt, UInt8.toNat_ofNat', Nat.mod_eq_of_lt hlt]

/-- A byte keeps a number modulo its width. -/
theorem natCast_toNat_ofInt (x : ℤ) : ((UInt8.ofInt x).toNat : ℤ) = x % 2 ^ 8 := by
  rw [toNat_ofInt, Int.toNat_of_nonneg (Int.emod_nonneg x (by decide))]

@[simp] theorem ofLittleEndian_nil : ofLittleEndian [] = 0 := rfl

@[simp] theorem ofLittleEndian_cons (b : UInt8) (bytes : List UInt8) :
    ofLittleEndian (b :: bytes) = b.toNat + 256 * ofLittleEndian bytes := by
  rw [ofLittleEndian, List.map_cons, Nat.ofDigits_cons, ofLittleEndian]

@[simp] theorem length_littleEndian (width : ℕ) (x : ℤ) : (littleEndian width x).length = width := by
  induction width generalizing x with
  | zero => rfl
  | succ width ih => rw [littleEndian, List.length_cons, ih]

/-- What is written is read modulo the width. -/
theorem ofLittleEndian_littleEndian (width : ℕ) (x : ℤ) :
    (ofLittleEndian (littleEndian width x) : ℤ) = x % 256 ^ width := by
  induction width generalizing x with
  | zero => rw [pow_zero, Int.emod_one, littleEndian, ofLittleEndian_nil, Nat.cast_zero]
  | succ width ih =>
      rw [littleEndian, ofLittleEndian_cons]
      push_cast
      rw [ih, natCast_toNat_ofInt]
      change x % 256 + 256 * (x / 256 % 256 ^ width) = x % 256 ^ (width + 1)
      rw [pow_succ']
      simp only [Int.emod_def, ← Int.ediv_ediv_of_nonneg (show (0 : ℤ) ≤ 256 by decide)]
      ring

/-- Every block of bytes is what is written of the number read from it. -/
theorem littleEndian_ofLittleEndian (bytes : List UInt8) :
    littleEndian bytes.length (ofLittleEndian bytes) = bytes := by
  induction bytes with
  | nil => rfl
  | cons b bytes ih =>
      have hb := b.toNat_lt
      have hlow : UInt8.ofInt (ofLittleEndian (b :: bytes)) = b := by
        rw [← UInt8.toNat_inj, toNat_ofInt, ofLittleEndian_cons]
        omega
      have hhigh : ((ofLittleEndian (b :: bytes) : ℕ) : ℤ) / 2 ^ 8 = ofLittleEndian bytes := by
        rw [ofLittleEndian_cons]
        omega
      rw [List.length_cons, littleEndian, hlow, hhigh, ih]

/-! ### Fields -/

/-- A number in a record and the place of its bytes. -/
structure WordField (α : Type*) where
  offset : ℕ
  width : ℕ
  get : α → ℤ

namespace WordField

variable {α : Type*} {f : WordField α} {pack : α → List UInt8} {parse : List UInt8 → α} {v : α}

/-- The packer puts the lowest bytes of the number of `v` at its place. -/
def WrittenBy (f : WordField α) (pack : α → List UInt8) (v : α) : Prop :=
  slice (pack v) f.offset f.width = littleEndian f.width (f.get v)

/-- The parser takes the number from its place. -/
def ReadBy (f : WordField α) (parse : List UInt8 → α) : Prop :=
  ∀ data, f.get (parse data) = ofLittleEndian (slice data f.offset f.width)

theorem WrittenBy.slice_append (h : f.WrittenBy pack v) (tail : List UInt8) :
    slice (pack v ++ tail) f.offset f.width = littleEndian f.width (f.get v) := by
  have hlength := congrArg List.length h
  rw [length_slice, length_littleEndian] at hlength
  rcases Nat.eq_zero_or_pos f.width with hzero | hpos
  · rw [hzero, slice_zero_length, littleEndian]
  · rw [← h, slice, slice, List.drop_append_of_le_length (by omega),
      List.take_append_of_le_length (by rw [List.length_drop]; omega)]

/-- A number comes back modulo the width of its place. -/
theorem get_parse_pack (hwrite : f.WrittenBy pack v) (hread : f.ReadBy parse) (tail : List UInt8) :
    f.get (parse (pack v ++ tail)) = f.get v % 256 ^ f.width := by
  rw [hread, hwrite.slice_append, ofLittleEndian_littleEndian]

/-- A number comes back just when it fits in its place. -/
theorem get_parse_pack_eq_iff (hwrite : f.WrittenBy pack v) (hread : f.ReadBy parse)
    (tail : List UInt8) :
    f.get (parse (pack v ++ tail)) = f.get v ↔ 0 ≤ f.get v ∧ f.get v < 256 ^ f.width := by
  have hpow : (0 : ℤ) < 256 ^ f.width := by positivity
  rw [get_parse_pack hwrite hread]
  constructor
  · intro h
    rw [← h]
    exact ⟨Int.emod_nonneg _ hpow.ne', Int.emod_lt_of_pos _ hpow⟩
  · intro h
    exact Int.emod_eq_of_lt h.1 h.2

end WordField

end ByteOrder
