import Mathlib.Algebra.Order.Ring.Int
import Mathlib.Data.Nat.Prime.Basic
import Mathlib.Tactic.Ring

/-! # 32-bit arithmetic

The operators of an unsigned 32-bit type as functions of natural numbers, those of the signed type as
functions of integers. Sums, differences and products wrap around, and a division by zero has no
result. -/

namespace Word32

/-- The greatest value. -/
def top : ℕ := 2 ^ 32 - 1

def add (a b : ℕ) : ℕ := (a + b) % 2 ^ 32

def sub (a b : ℕ) : ℕ := (a + (2 ^ 32 - b)) % 2 ^ 32

def mul (a b : ℕ) : ℕ := a * b % 2 ^ 32

def udiv (a b : ℕ) : Option ℕ := if b = 0 then none else some (a / b)

/-- The absolute value of the signed value with the same bits. -/
def abs (a : ℕ) : ℕ := if a < 2 ^ 31 then a else 2 ^ 32 - a

/-- The unsigned value with the bits of a signed one. -/
def ofInt (x : ℤ) : ℕ := (x % 2 ^ 32).toNat

/-- The signed value with these bits. -/
def wrap (x : ℤ) : ℤ := x.bmod (2 ^ 32)

/-- The value is one of the signed type. -/
def IsInt (x : ℤ) : Prop := -2 ^ 31 ≤ x ∧ x < 2 ^ 31

instance (x : ℤ) : Decidable (IsInt x) := inferInstanceAs (Decidable (_ ∧ _))

def sdiv (a b : ℤ) : Option ℤ := if b = 0 then none else some (a.tdiv b)

variable {a b : ℕ}

theorem add_of_lt (h : a + b < 2 ^ 32) : add a b = a + b := Nat.mod_eq_of_lt h

theorem mul_of_lt (h : a * b < 2 ^ 32) : mul a b = a * b := Nat.mod_eq_of_lt h

theorem sub_of_le (ha : a < 2 ^ 32) (h : b ≤ a) : sub a b = a - b := by
  rw [sub]
  omega

theorem sub_of_gt (hb : b ≤ 2 ^ 32) (h : a < b) : sub a b = 2 ^ 32 + a - b := by
  rw [sub]
  omega

theorem abs_le (h : a < 2 ^ 32) : abs a ≤ 2 ^ 31 := by
  rw [abs]
  split <;> omega

theorem abs_sub (ha : a < 2 ^ 31) (hb : b < 2 ^ 31) : abs (sub a b) = (a - b) + (b - a) := by
  rw [abs, sub]
  split <;> omega

theorem abs_sub_eq_zero_iff (ha : a < 2 ^ 32) (hb : b < 2 ^ 32) : abs (sub a b) = 0 ↔ a = b := by
  rw [abs, sub]
  split <;> omega

theorem udiv_of_pos (h : 0 < b) : udiv a b = some (a / b) := if_neg (Nat.ne_of_gt h)

theorem udiv_eq_none_iff : udiv a b = none ↔ b = 0 := by
  rw [udiv]
  split <;> simp [*]

theorem sdiv_eq_none_iff {x y : ℤ} : sdiv x y = none ↔ y = 0 := by
  rw [sdiv]
  split <;> simp [*]

theorem sdiv_natCast (h : 0 < b) : sdiv a b = some ((a / b : ℕ) : ℤ) := by
  rw [sdiv, if_neg (by omega), Int.natCast_div, Int.tdiv_eq_ediv_of_nonneg (Int.natCast_nonneg a)]

theorem sdiv_neg_natCast (h : 0 < b) : sdiv (-a) b = some (-((a / b : ℕ) : ℤ)) := by
  rw [sdiv, if_neg (by omega), Int.neg_tdiv, Int.natCast_div,
    Int.tdiv_eq_ediv_of_nonneg (Int.natCast_nonneg a)]

theorem sdiv_natCast_neg (h : 0 < b) : sdiv a (-b) = some (-((a / b : ℕ) : ℤ)) := by
  rw [sdiv, if_neg (by omega), Int.tdiv_neg, Int.natCast_div,
    Int.tdiv_eq_ediv_of_nonneg (Int.natCast_nonneg a)]

theorem ofInt_lt (x : ℤ) : ofInt x < 2 ^ 32 := by
  rw [ofInt]
  omega

theorem ofInt_natCast (h : a < 2 ^ 32) : ofInt a = a := by
  rw [ofInt]
  omega

theorem ofInt_neg_natCast (hpos : 0 < a) (ha : a ≤ 2 ^ 32) : ofInt (-a) = 2 ^ 32 - a := by
  have hmod : -(a : ℤ) % 2 ^ 32 = 2 ^ 32 - a := by omega
  rw [ofInt, hmod]
  omega

/-- A value of the signed type that is small as an unsigned one is not negative. -/
theorem ofInt_le_iff {x : ℤ} {n : ℕ} (hx : IsInt x) (hn : n < 2 ^ 31) :
    ofInt x ≤ n ↔ 0 ≤ x ∧ x ≤ n := by
  obtain ⟨hlow, hhigh⟩ := hx
  rw [ofInt]
  omega

theorem wrap_of_lt {x : ℤ} (hlow : -2 ^ 31 ≤ x) (hhigh : x < 2 ^ 31) : wrap x = x := by
  rw [wrap, Int.bmod_eq_of_le] <;> omega

theorem wrap_natCast (h : a < 2 ^ 31) : wrap a = a := wrap_of_lt (by omega) (by omega)

/-- A value with the high bit is negative. -/
theorem wrap_of_le (h : 2 ^ 31 ≤ a) (ha : a < 2 ^ 32) : wrap a = -(abs a : ℕ) := by
  unfold wrap
  rw [abs, if_neg (Nat.not_lt.mpr h), Int.bmod_def]
  split <;> omega

theorem natAbs_wrap (ha : a < 2 ^ 32) : (wrap a).natAbs = abs a := by
  rcases Nat.lt_or_ge a (2 ^ 31) with h | h
  · rw [wrap_natCast h, abs, if_pos h, Int.natAbs_natCast]
  · rw [wrap_of_le h ha, Int.natAbs_neg, Int.natAbs_natCast]

theorem ofInt_wrap (x : ℤ) : ofInt (wrap x) = ofInt x := by
  unfold ofInt wrap
  rw [Int.bmod_def]
  split <;> omega

theorem isInt_wrap (x : ℤ) : IsInt (wrap x) :=
  ⟨Int.le_bmod (by decide), Int.bmod_lt (by decide)⟩

theorem wrap_eq_zero_iff {x : ℤ} : wrap x = 0 ↔ x % 2 ^ 32 = 0 := by
  unfold wrap
  rw [Int.bmod_def]
  split <;> omega

/-- A factor below `2 ^ (j + 1)` has at most `j` of the twos of a product. -/
theorem two_pow_dvd_of_dvd_mul {e j k : ℕ} (hpos : 0 < k) (hk : k < 2 ^ (j + 1))
    (h : 2 ^ (e + j) ∣ k * b) : 2 ^ e ∣ b := by
  induction j generalizing k with
  | zero =>
      obtain rfl : k = 1 := by omega
      rwa [Nat.one_mul, Nat.add_zero] at h
  | succ j ih =>
      rcases Nat.even_or_odd' k with ⟨half, rfl | rfl⟩
      · rw [← Nat.add_assoc, Nat.pow_succ', Nat.mul_assoc] at h
        exact ih (by omega) (by rw [Nat.pow_succ] at hk; omega)
          (Nat.dvd_of_mul_dvd_mul_left (by decide) h)
      · have hcoprime : Nat.Coprime (2 ^ (e + (j + 1))) (2 * half + 1) :=
          Nat.Coprime.pow_left _ (by simp)
        exact (pow_dvd_pow 2 (Nat.le_add_right e _)).trans (hcoprime.dvd_of_dvd_mul_left h)

end Word32
