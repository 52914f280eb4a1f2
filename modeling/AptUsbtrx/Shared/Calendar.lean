import Mathlib.Data.Nat.Basic
import Mathlib.Tactic.Ring
import Mathlib.Tactic.IntervalCases

/-! # The proleptic Gregorian calendar

Dates are numbered by the days from 1970-01-01 on. The number of a date is a closed formula; that
the day behind a date has the next number, and that no two dates have the same, is what makes it
a calendar. -/

namespace Calendar

/-- A year with a 29th of February. -/
def IsLeap (year : ℤ) : Prop :=
  year % 4 = 0 ∧ (year % 100 ≠ 0 ∨ year % 400 = 0)

instance (year : ℤ) : Decidable (IsLeap year) := inferInstanceAs (Decidable (_ ∧ _))

def daysInMonth (year : ℤ) : ℕ → ℕ
  | 2 => if IsLeap year then 29 else 28
  | 4 | 6 | 9 | 11 => 30
  | _ => 31

structure Date where
  year : ℤ
  month : ℕ
  day : ℕ
  month_pos : 1 ≤ month
  month_le : month ≤ 12
  day_pos : 1 ≤ day
  day_le : day ≤ daysInMonth year month
  deriving DecidableEq

theorem daysInMonth_pos (year : ℤ) (month : ℕ) : 1 ≤ daysInMonth year month := by
  unfold daysInMonth
  split
  · split <;> decide
  all_goals decide

/-- 1970-01-01 -/
def Date.epoch : Date :=
  ⟨1970, 1, 1, Nat.le_refl _, by decide, Nat.le_refl _, daysInMonth_pos _ _⟩

/-- The day behind a date. -/
def Date.next (date : Date) : Date :=
  if hday : date.day < daysInMonth date.year date.month then
    { date with day := date.day + 1, day_pos := Nat.le_add_left 1 _, day_le := hday }
  else if hmonth : date.month < 12 then
    ⟨date.year, date.month + 1, 1, Nat.le_add_left 1 _, hmonth, Nat.le_refl _,
      daysInMonth_pos _ _⟩
  else ⟨date.year + 1, 1, 1, Nat.le_refl _, by decide, Nat.le_refl _, daysInMonth_pos _ _⟩

/-- The days of a year before a month. -/
def daysBeforeMonth (year : ℤ) : ℕ → ℕ
  | 0 | 1 => 0
  | month + 2 => daysBeforeMonth year (month + 1) + daysInMonth year (month + 1)

/-- The days from 0001-01-01 on before a year. -/
def daysBeforeYear (year : ℤ) : ℤ :=
  365 * (year - 1) + (year - 1) / 4 - (year - 1) / 100 + (year - 1) / 400

/-- The day of the year, from 0 on. -/
def Date.dayOfYear (date : Date) : ℕ := daysBeforeMonth date.year date.month + (date.day - 1)

/-- The number of a day, that of 1970-01-01 being 0. -/
def Date.dayNumber (date : Date) : ℤ :=
  daysBeforeYear date.year - daysBeforeYear 1970 + date.dayOfYear

theorem daysBeforeMonth_succ (year : ℤ) {month : ℕ} (h : 1 ≤ month) :
    daysBeforeMonth year (month + 1) = daysBeforeMonth year month + daysInMonth year month := by
  obtain ⟨month, rfl⟩ := Nat.exists_eq_add_of_le' h
  rfl

/-- The length of a year, month by month. -/
theorem daysBeforeMonth_thirteen (year : ℤ) :
    daysBeforeMonth year 13 = if IsLeap year then 366 else 365 := by
  simp only [daysBeforeMonth, daysInMonth]
  split <;> rfl

theorem daysBeforeYear_succ (year : ℤ) :
    daysBeforeYear (year + 1) = daysBeforeYear year + daysBeforeMonth year 13 := by
  rw [daysBeforeMonth_thirteen]
  unfold daysBeforeYear
  by_cases hleap : IsLeap year
  · rw [if_pos hleap]
    unfold IsLeap at hleap
    omega
  · rw [if_neg hleap]
    unfold IsLeap at hleap
    omega

theorem daysBeforeMonth_mono (year : ℤ) {m n : ℕ} (hm : 1 ≤ m) (h : m ≤ n) :
    daysBeforeMonth year m ≤ daysBeforeMonth year n := by
  induction n, h using Nat.le_induction with
  | base => exact Nat.le_refl _
  | succ n hmn ih =>
      rw [daysBeforeMonth_succ year (hm.trans hmn)]
      omega

theorem daysBeforeYear_mono {y z : ℤ} (h : y ≤ z) : daysBeforeYear y ≤ daysBeforeYear z := by
  unfold daysBeforeYear
  omega

/-- A date lies before the month behind its own. -/
theorem Date.dayOfYear_lt_succ (date : Date) :
    date.dayOfYear < daysBeforeMonth date.year (date.month + 1) := by
  have hpos := date.day_pos
  have hle := date.day_le
  rw [daysBeforeMonth_succ date.year date.month_pos, Date.dayOfYear]
  omega

theorem Date.dayOfYear_lt (date : Date) : date.dayOfYear < daysBeforeMonth date.year 13 :=
  Nat.lt_of_lt_of_le date.dayOfYear_lt_succ
    (daysBeforeMonth_mono date.year (Nat.le_add_left 1 _) (Nat.succ_le_succ date.month_le))

theorem Date.day_lt (date : Date) : date.day < 32 := by
  have hle := date.day_le
  have hlen : daysInMonth date.year date.month ≤ 31 := by
    unfold daysInMonth
    split
    · split <;> decide
    all_goals decide
  omega

theorem Date.dayNumber_epoch : Date.epoch.dayNumber = 0 := by
  simp [Date.dayNumber, Date.dayOfYear, Date.epoch, daysBeforeMonth]

theorem Date.dayNumber_next (date : Date) : date.next.dayNumber = date.dayNumber + 1 := by
  have hpos := date.day_pos
  have hle := date.day_le
  have hmonth := daysBeforeMonth_succ date.year date.month_pos
  unfold Date.next
  split
  next hday =>
    simp only [Date.dayNumber, Date.dayOfYear]
    omega
  next hday =>
    split
    next hlt =>
      simp only [Date.dayNumber, Date.dayOfYear, hmonth]
      omega
    next hge =>
      have htwelve : date.month = 12 := by
        have := date.month_le
        omega
      have hyear := daysBeforeYear_succ date.year
      have hjanuary : daysBeforeMonth (date.year + 1) 1 = 0 := rfl
      rw [htwelve] at hmonth hle hday
      simp only [Date.dayNumber, Date.dayOfYear, htwelve, hjanuary, hyear, hmonth]
      omega

theorem Date.year_eq_of_dayNumber_eq {d d' : Date} (h : d.dayNumber = d'.dayNumber) :
    d.year = d'.year := by
  have key : ∀ {d d' : Date}, d.dayNumber = d'.dayNumber → ¬ d.year < d'.year := by
    intro d d' h hlt
    have hday := d.dayOfYear_lt
    have hsucc := daysBeforeYear_succ d.year
    have hmono := daysBeforeYear_mono (show d.year + 1 ≤ d'.year by omega)
    simp only [Date.dayNumber] at h
    omega
  have := key h
  have := key h.symm
  omega

/-- No two dates have the same number. -/
theorem Date.dayNumber_injective {d d' : Date} (h : d.dayNumber = d'.dayNumber) : d = d' := by
  have hyear := Date.year_eq_of_dayNumber_eq h
  have hday : d.dayOfYear = d'.dayOfYear := by
    simp only [Date.dayNumber, hyear] at h
    omega
  have key : ∀ {d d' : Date}, d.year = d'.year → d.dayOfYear = d'.dayOfYear →
      ¬ d.month < d'.month := by
    intro d d' hyear hday hlt
    have hlast := d.dayOfYear_lt_succ
    have hmono := daysBeforeMonth_mono d'.year (Nat.le_add_left 1 d.month) hlt
    rw [hyear] at hlast
    rw [hday, Date.dayOfYear] at hlast
    omega
  have hmonth : d.month = d'.month := by
    have := key hyear hday
    have := key hyear.symm hday.symm
    omega
  have hpos := d.day_pos
  have hpos' := d'.day_pos
  simp only [Date.dayOfYear, hyear, hmonth] at hday
  obtain ⟨year, month, day, _, _, _, _⟩ := d
  obtain ⟨year', month', day', _, _, _, _⟩ := d'
  simp only [Date.mk.injEq] at hyear hmonth hday ⊢
  exact ⟨hyear, hmonth, by omega⟩

/-- The days before a year are those with the numbers before that of its first day. -/
theorem Date.year_lt_iff (date : Date) (year : ℤ) :
    date.year < year ↔ date.dayNumber < daysBeforeYear year - daysBeforeYear 1970 := by
  have hday := date.dayOfYear_lt
  have hsucc := daysBeforeYear_succ date.year
  rw [Date.dayNumber]
  constructor
  · intro hlt
    have hmono := daysBeforeYear_mono (show date.year + 1 ≤ year by omega)
    omega
  · intro hlt
    by_contra hge
    have hmono := daysBeforeYear_mono (show year ≤ date.year by omega)
    omega

end Calendar
