import AptUsbtrx.Model.RtcTime
import AptUsbtrx.Shared.Calendar
import AptUsbtrx.Verification.Codec.Settings

/-! # The date of a second

`time64_to_tm` counts in years that begin in March: a century has 36524 days and one more if it
ends in a leap year, a year 365 and one more if it ends with a leap day, and the multiplications
that stand for the divisions by these lengths are exact over the days that occur. -/

namespace AptUsbtrx

open Calendar

/-! ### The second of the day -/

/-- The day and the second of the day stand for the same time. -/
theorem raiseRem_spec (days rem : ℤ) :
    secsPerDay * (raiseRem days rem).1 + (raiseRem days rem).2 = secsPerDay * days + rem ∧
      0 ≤ (raiseRem days rem).2 := by
  fun_induction raiseRem with
  | case1 days rem h ih =>
      refine ⟨?_, ih.2⟩
      rw [ih.1]
      ring
  | case2 days rem h => exact ⟨rfl, by omega⟩

theorem lowerRem_spec (days : ℤ) {rem : ℤ} (h : 0 ≤ rem) :
    secsPerDay * (lowerRem days rem).1 + (lowerRem days rem).2 = secsPerDay * days + rem ∧
      0 ≤ (lowerRem days rem).2 ∧ (lowerRem days rem).2 < secsPerDay := by
  fun_induction lowerRem with
  | case1 days rem hge ih =>
      have := ih (by omega)
      refine ⟨?_, this.2⟩
      rw [this.1]
      ring
  | case2 days rem hlt => exact ⟨rfl, h, by omega⟩

theorem dayAndRem_eq (totalsecs offset : ℤ) :
    dayAndRem totalsecs offset =
      ((totalsecs + offset) / secsPerDay, (totalsecs + offset) % secsPerDay) := by
  have hsplit := Int.mul_tdiv_add_tmod totalsecs secsPerDay
  have hraise := raiseRem_spec (totalsecs.tdiv secsPerDay) (totalsecs.tmod secsPerDay + offset)
  have hlower := lowerRem_spec
    (raiseRem (totalsecs.tdiv secsPerDay) (totalsecs.tmod secsPerDay + offset)).1 hraise.2
  change lowerRem _ _ = _
  have hsum := hlower.1.trans hraise.1
  obtain ⟨hlo, hhi⟩ := hlower.2
  generalize lowerRem _ _ = r at hsum hlo hhi ⊢
  simp only [secsPerDay, secsPerHour] at hsplit hsum hhi ⊢
  exact Prod.ext (by dsimp only; omega) (by dsimp only; omega)

/-! ### The year -/

/-- A century of days that begins in March. -/
theorem century_split (n : ℕ) :
    n = 36524 * ((4 * n + 3) / 146097) + (4 * n + 3) / 146097 / 4 + (4 * n + 3) % 146097 / 4 ∧
      (4 * n + 3) % 146097 / 4 ≤ 36524 ∧
      ((4 * n + 3) % 146097 / 4 = 36524 → (4 * n + 3) / 146097 % 4 = 3) := by
  have hdiv := Nat.div_add_mod (4 * n + 3) 146097
  have hmod := Nat.mod_lt (4 * n + 3) (show 0 < 146097 by decide)
  generalize (4 * n + 3) / 146097 = c at hdiv ⊢
  generalize (4 * n + 3) % 146097 = r at hdiv hmod ⊢
  refine ⟨by omega, by omega, fun hlast => ?_⟩
  obtain rfl : r = 146096 := by omega
  have hsum : c + 4 * (36524 * c + 36524) = 3 + 4 * n := by rw [← Nat.add_comm _ 3, ← hdiv]; ring
  have hmod4 := congrArg (· % 4) hsum
  simpa only [Nat.add_mul_mod_self_left] using hmod4

/-- A year of days that begins in March. -/
theorem year_split {n : ℕ} (h : n ≤ 36524) :
    n = 365 * ((4 * n + 3) / 1461) + (4 * n + 3) / 1461 / 4 + (4 * n + 3) % 1461 / 4 ∧
      (4 * n + 3) / 1461 ≤ 99 ∧ (4 * n + 3) % 1461 / 4 ≤ 365 ∧
      ((4 * n + 3) % 1461 / 4 = 365 → (4 * n + 3) / 1461 % 4 = 3) := by
  have hdiv := Nat.div_add_mod (4 * n + 3) 1461
  have hmod := Nat.mod_lt (4 * n + 3) (show 0 < 1461 by decide)
  generalize (4 * n + 3) / 1461 = q at hdiv ⊢
  generalize (4 * n + 3) % 1461 = r at hdiv hmod ⊢
  refine ⟨by omega, by omega, by omega, fun hlast => ?_⟩
  obtain rfl : r = 1460 := by omega
  omega

/-- `2939745 * 1461` is `2 ^ 32 + 149`: the upper word of the product is the quotient by 1461, the
lower one gives the remainder. -/
theorem upper_lower_eq {n : ℕ} (h : n < 146100) :
    2939745 * n / 2 ^ 32 = n / 1461 ∧ 2939745 * n % 2 ^ 32 / 2939745 = n % 1461 := by
  have hdiv := Nat.div_add_mod n 1461
  have hmod := Nat.mod_lt n (show 0 < 1461 by decide)
  generalize n / 1461 = q at hdiv ⊢
  generalize n % 1461 = r at hdiv hmod ⊢
  have hproduct : 2939745 * n = 2 ^ 32 * q + (149 * q + 2939745 * r) := by omega
  have hlow : 149 * q + 2939745 * r < 2 ^ 32 := by omega
  have hupper : 2939745 * n / 2 ^ 32 = q := by omega
  have hlower : 2939745 * n % 2 ^ 32 = 149 * q + 2939745 * r := by omega
  rw [hupper, hlower]
  omega

/-! ### The month -/

theorem daysInMonth_of_ne_two (year year' : ℤ) {month : ℕ} (h : month ≠ 2) :
    daysInMonth year month = daysInMonth year' month := by
  unfold daysInMonth
  split <;> simp_all

theorem daysBeforeMonth_of_ge (year : ℤ) {month : ℕ} (h : 3 ≤ month) :
    daysBeforeMonth year month = daysBeforeMonth 1 month + if IsLeap year then 1 else 0 := by
  induction month, h using Nat.le_induction with
  | base =>
      have hone : ¬ IsLeap 1 := by decide
      simp only [daysBeforeMonth, daysInMonth, if_neg hone]
      split <;> rfl
  | succ month hmonth ih =>
      rw [daysBeforeMonth_succ year (by omega), daysBeforeMonth_succ 1 (by omega), ih,
        daysInMonth_of_ne_two year 1 (by omega)]
      omega

/-- From March to December. -/
theorem month_of_lt {n : ℕ} (h : n < 306) :
    2 ≤ (2141 * n + 132377) / 2 ^ 16 ∧ (2141 * n + 132377) / 2 ^ 16 ≤ 11 ∧
      daysBeforeMonth 1 ((2141 * n + 132377) / 2 ^ 16 + 1) +
        (2141 * n + 132377) % 2 ^ 16 / 2141 = 59 + n ∧
      (2141 * n + 132377) % 2 ^ 16 / 2141 <
        daysInMonth 1 ((2141 * n + 132377) / 2 ^ 16 + 1) := by
  have hdiv := Nat.div_add_mod (2141 * n + 132377) (2 ^ 16)
  have hmod := Nat.mod_lt (2141 * n + 132377) (show 0 < 2 ^ 16 by decide)
  generalize (2141 * n + 132377) / 2 ^ 16 = month at hdiv ⊢
  generalize (2141 * n + 132377) % 2 ^ 16 = rest at hdiv hmod ⊢
  have hlo : 2 ≤ month := by omega
  have hhi : month ≤ 11 := by omega
  have hone : ¬ IsLeap 1 := by decide
  refine ⟨hlo, hhi, ?_⟩
  interval_cases month
  all_goals
    simp only [daysBeforeMonth, daysInMonth, if_neg hone]
    omega

/-- January and February. -/
theorem month_of_ge {n : ℕ} (h : n < 366) (hge : 306 ≤ n) :
    12 ≤ (2141 * n + 132377) / 2 ^ 16 ∧ (2141 * n + 132377) / 2 ^ 16 ≤ 13 ∧
      daysBeforeMonth 1 ((2141 * n + 132377) / 2 ^ 16 - 12 + 1) +
        (2141 * n + 132377) % 2 ^ 16 / 2141 = n - 306 ∧
      (2141 * n + 132377) % 2 ^ 16 / 2141 <
        daysInMonth 1 ((2141 * n + 132377) / 2 ^ 16 - 12 + 1) + if n = 365 then 1 else 0 := by
  have hdiv := Nat.div_add_mod (2141 * n + 132377) (2 ^ 16)
  have hmod := Nat.mod_lt (2141 * n + 132377) (show 0 < 2 ^ 16 by decide)
  generalize (2141 * n + 132377) / 2 ^ 16 = month at hdiv ⊢
  generalize (2141 * n + 132377) % 2 ^ 16 = rest at hdiv hmod ⊢
  have hlo : 12 ≤ month := by omega
  have hhi : month ≤ 13 := by omega
  have hone : ¬ IsLeap 1 := by decide
  refine ⟨hlo, hhi, ?_⟩
  interval_cases month
  all_goals
    simp only [Nat.sub_self, Nat.reduceSub, Nat.reduceAdd, Nat.zero_add, daysBeforeMonth,
      daysInMonth, if_neg hone]
    split <;> omega

/-! ### The date -/

/-- What `civilDay` computes, without the words: the year that begins in March is `year`. -/
theorem civilDay_eq {days : ℤ} (hlo : -2 ^ 60 ≤ days) (hhi : days < 2 ^ 60) :
    ∃ year doy : ℕ, year < 2 ^ 54 ∧ doy ≤ 365 ∧
      days + 2305843009213814918 = daysBeforeYear (year + 1) + doy ∧
      (doy = 365 → IsLeap (year + 1)) ∧
      civilDay days =
        if doy ≥ 306 then
          { year := (year + 1 + (2 ^ 64 - 6313183731940000)) % 2 ^ 64
            month := (2141 * doy + 132377) / 2 ^ 16 - 12
            day := (2141 * doy + 132377) % 2 ^ 16 / 2141 + 1
            dayOfYear := doy - 306 }
        else
          { year := (year + (2 ^ 64 - 6313183731940000)) % 2 ^ 64
            month := (2141 * doy + 132377) / 2 ^ 16
            day := (2141 * doy + 132377) % 2 ^ 16 / 2141 + 1
            dayOfYear := doy + (59 + if IsLeap year then 1 else 0) } := by
  obtain ⟨n, hn⟩ := Int.eq_ofNat_of_zero_le (show 0 ≤ days + 2305843009213814918 by omega)
  have hudays : ((days % 2 ^ 64).toNat + 2305843009213814918) % 2 ^ 64 = n := by omega
  have hbound : n < 2 ^ 62 - 1 := by omega
  obtain ⟨hcentury, hdoc, hlast⟩ := century_split n
  have hc : (4 * n + 3) / 146097 < 2 ^ 47 := by omega
  simp only [civilDay, hudays, Nat.mod_eq_of_lt (show 4 * n + 3 < 2 ^ 64 by omega),
    Nat.mod_eq_of_lt (show (4 * n + 3) % 146097 / 4 < 2 ^ 32 by omega)]
  generalize (4 * n + 3) / 146097 = century at *
  generalize (4 * n + 3) % 146097 / 4 = doc at *
  obtain ⟨hyear, hyoc, hdoy, hleapday⟩ := year_split hdoc
  obtain ⟨hupper, hlower⟩ := upper_lower_eq (show 4 * doc + 3 < 146100 by omega)
  rw [Word32.mul_of_lt (show 4 * doc < 2 ^ 32 by omega),
    Word32.add_of_lt (show 4 * doc + 3 < 2 ^ 32 by omega),
    Nat.mod_eq_of_lt (show 2939745 * (4 * doc + 3) < 2 ^ 64 by omega), hupper, hlower]
  generalize (4 * doc + 3) / 1461 = yoc at *
  generalize (4 * doc + 3) % 1461 / 4 = doy at *
  have hyear_lt : 100 * century + yoc < 2 ^ 54 := by omega
  refine ⟨100 * century + yoc, doy, hyear_lt, hdoy, ?_, ?_, ?_⟩
  · have h4 : (100 * century + yoc) / 4 = 25 * century + yoc / 4 := by omega
    have h100 : (100 * century + yoc) / 100 = century := by omega
    have h400 : (100 * century + yoc) / 400 = century / 4 := by omega
    have hsum : daysBeforeYear ((100 * century + yoc : ℕ) + 1) =
        365 * (100 * century + yoc : ℕ) + ((100 * century + yoc) / 4 : ℕ) -
          ((100 * century + yoc) / 100 : ℕ) + ((100 * century + yoc) / 400 : ℕ) := by
      rw [daysBeforeYear, Int.add_sub_cancel]
      rfl
    rw [hsum, h4, h100, h400]
    clear hupper hlower hlast hleapday hudays hbound hsum h4 h100 h400
    omega
  · clear hupper hlower hudays hbound hn
    unfold IsLeap
    omega
  · have hleap : (if yoc ≠ 0 then yoc % 4 = 0 else century % 4 = 0) ↔
        IsLeap (100 * century + yoc : ℕ) := by
      clear hupper hlower hudays hbound hn
      unfold IsLeap
      split <;> omega
    have hmonth : Word32.add (Word32.mul 2141 doy) 132377 = 2141 * doy + 132377 := by
      rw [Word32.mul_of_lt (by omega), Word32.add_of_lt (by omega)]
    have hday : Word32.add ((2141 * doy + 132377) % 2 ^ 16 / 2141) 1 =
        (2141 * doy + 132377) % 2 ^ 16 / 2141 + 1 := Word32.add_of_lt (by omega)
    rw [hmonth, hday, Nat.mod_eq_of_lt (show 100 * century + yoc < 2 ^ 64 by omega)]
    split
    next hge =>
      have hsub : Word32.sub ((2141 * doy + 132377) / 2 ^ 16) 12 =
          (2141 * doy + 132377) / 2 ^ 16 - 12 := Word32.sub_of_le (by omega) (by omega)
      have hyday : Word32.add doy (2 ^ 32 - 306) = doy - 306 := by
        rw [Word32.add]
        omega
      rw [hsub, hyday]
    next hlt =>
      simp only [hleap]
      rw [Word32.add_of_lt (by split <;> omega)]

/-- The year that the words of `civilDay` stand for. -/
theorem bmod_year {year : ℕ} (h : year < 2 ^ 55) :
    ((((year + (2 ^ 64 - 6313183731940000)) % 2 ^ 64 : ℕ) : ℤ) - 1900).bmod (2 ^ 64) =
      year - 6313183731940000 - 1900 := by
  rw [Int.bmod_def]
  split <;> omega

theorem isLeap_sub (year : ℤ) : IsLeap (year - 6313183731940000) ↔ IsLeap year := by
  unfold IsLeap
  omega

theorem daysBeforeYear_sub (year : ℤ) :
    daysBeforeYear (year - 6313183731940000) = daysBeforeYear year - 2305843009213095450 := by
  have h4 : (year - 6313183731940000 - 1) / 4 = (year - 1) / 4 - 1578295932985000 := by omega
  have h100 : (year - 6313183731940000 - 1) / 100 = (year - 1) / 100 - 63131837319400 := by omega
  have h400 : (year - 6313183731940000 - 1) / 400 = (year - 1) / 400 - 15782959329850 := by omega
  rw [daysBeforeYear, daysBeforeYear, h4, h100, h400]
  ring

/-- The fields of a `struct tm` that the date decides. -/
structure TmDate (date : Date) (civil : CivilDay) : Prop where
  year : ((civil.year : ℤ) - 1900).bmod (2 ^ 64) = date.year - 1900
  month : civil.month + 1 = date.month
  day : civil.day = date.day
  dayOfYear : civil.dayOfYear = date.dayOfYear

/-- The date of a day of a year that begins in March, from January on. -/
theorem date_of_ge {year doy : ℕ} (hdoy : doy ≤ 365) (hge : 306 ≤ doy)
    (hleapday : doy = 365 → IsLeap (year + 1)) :
    ∃ date : Date, date.year = year + 1 - 6313183731940000 ∧
      date.month = (2141 * doy + 132377) / 2 ^ 16 - 12 + 1 ∧
      date.day = (2141 * doy + 132377) % 2 ^ 16 / 2141 + 1 ∧ date.dayOfYear = doy - 306 := by
  obtain ⟨hm, hm', hbefore, hday⟩ := month_of_ge (show doy < 366 by omega) hge
  generalize (2141 * doy + 132377) / 2 ^ 16 = month at *
  generalize (2141 * doy + 132377) % 2 ^ 16 / 2141 = day at *
  have hleap : IsLeap ((year : ℤ) + 1 - 6313183731940000) ↔ IsLeap ((year : ℤ) + 1) := isLeap_sub _
  have hcases : month = 12 ∨ month = 13 := by omega
  have hone : ¬ IsLeap 1 := by decide
  rcases hcases with rfl | rfl
  · have hbefore' : day = doy - 306 := by simpa [daysBeforeMonth] using hbefore
    have hlt : day < 31 := by
      have hjanuary : daysInMonth 1 (12 - 12 + 1) = 31 := rfl
      rw [hjanuary] at hday
      split at hday <;> omega
    exact ⟨⟨year + 1 - 6313183731940000, 1, day + 1, by decide, by decide, by omega, hlt⟩,
      rfl, rfl, rfl, by simpa [Date.dayOfYear, daysBeforeMonth] using hbefore'⟩
  · have hlt : day + 1 ≤ daysInMonth ((year : ℤ) + 1 - 6313183731940000) 2 := by
      simp only [daysInMonth, if_neg hone] at hday ⊢
      split at hday
      · rw [if_pos (hleap.mpr (hleapday ‹_›))]
        omega
      · split <;> omega
    exact ⟨⟨year + 1 - 6313183731940000, 2, day + 1, by decide, by decide, by omega, hlt⟩,
      rfl, rfl, rfl, by simpa [Date.dayOfYear, daysBeforeMonth, daysInMonth] using hbefore⟩

/-- The date of a day of a year that begins in March, up to December. -/
theorem date_of_lt (year : ℕ) {doy : ℕ} (hlt : doy < 306) :
    ∃ date : Date, date.year = year - 6313183731940000 ∧
      date.month = (2141 * doy + 132377) / 2 ^ 16 + 1 ∧
      date.day = (2141 * doy + 132377) % 2 ^ 16 / 2141 + 1 ∧
      date.dayOfYear = doy + (59 + if IsLeap year then 1 else 0) := by
  obtain ⟨hm, hm', hbefore, hday⟩ := month_of_lt hlt
  generalize (2141 * doy + 132377) / 2 ^ 16 = month at *
  generalize (2141 * doy + 132377) % 2 ^ 16 / 2141 = day at *
  have hday' : day + 1 ≤ daysInMonth ((year : ℤ) - 6313183731940000) (month + 1) := by
    rw [daysInMonth_of_ne_two _ 1 (by omega)]
    exact hday
  refine ⟨⟨year - 6313183731940000, month + 1, day + 1, by omega, by omega, by omega, hday'⟩,
    rfl, rfl, rfl, ?_⟩
  rw [Date.dayOfYear, daysBeforeMonth_of_ge _ (by dsimp only; omega)]
  simp only [isLeap_sub]
  omega

theorem civilDay_spec {days : ℤ} (hlo : -2 ^ 60 ≤ days) (hhi : days < 2 ^ 60) :
    ∃ date : Date, date.dayNumber = days ∧ TmDate date (civilDay days) := by
  obtain ⟨year, doy, hyear, hdoy, hnumber, hleapday, hcivil⟩ := civilDay_eq hlo hhi
  have hepoch : daysBeforeYear 1970 = 719162 := by decide
  by_cases hge : doy ≥ 306
  · rw [if_pos hge] at hcivil
    obtain ⟨date, hdate, hmonth, hday, hyday⟩ := date_of_ge hdoy hge hleapday
    have hbefore := daysBeforeYear_sub (year + 1)
    rw [hcivil]
    refine ⟨date, ?_, ?_, hmonth.symm, hday.symm, hyday.symm⟩
    · rw [Date.dayNumber, hdate, hbefore, hepoch, hyday]
      omega
    · rw [hdate]
      have hword := bmod_year (show year + 1 < 2 ^ 55 by omega)
      push_cast at hword ⊢
      rw [hword]
  · rw [if_neg hge] at hcivil
    obtain ⟨date, hdate, hmonth, hday, hyday⟩ := date_of_lt year (Nat.lt_of_not_le hge)
    have hbefore := daysBeforeYear_sub year
    have hsucc := daysBeforeYear_succ year
    rw [daysBeforeMonth_thirteen] at hsucc
    rw [hcivil]
    refine ⟨date, ?_, ?_, hmonth.symm, hday.symm, hyday.symm⟩
    · rw [Date.dayNumber, hdate, hbefore, hepoch, hyday]
      by_cases hleap : IsLeap year
      · rw [if_pos hleap] at hsucc
        rw [if_pos hleap]
        omega
      · rw [if_neg hleap] at hsucc
        rw [if_neg hleap]
        omega
    · rw [hdate]
      exact bmod_year (show year < 2 ^ 55 by omega)

/-! ### The broken-down time -/

/-- The broken-down time of the second `t`, with its date. -/
structure TmSpec (t : ℤ) (tm : Tm) (date : Date) : Prop where
  seconds : t = 86400 * date.dayNumber + 3600 * tm.tmHour + 60 * tm.tmMin + tm.tmSec
  hour : 0 ≤ tm.tmHour ∧ tm.tmHour < 24
  min : 0 ≤ tm.tmMin ∧ tm.tmMin < 60
  sec : 0 ≤ tm.tmSec ∧ tm.tmSec < 60
  year : tm.tmYear = date.year - 1900
  mon : tm.tmMon = date.month - 1
  mday : tm.tmMday = date.day
  yday : tm.tmYday = date.dayOfYear
  wday : tm.tmWday = (date.dayNumber + 4) % 7

theorem TmSpec.dayNumber_eq {t : ℤ} {tm : Tm} {date : Date} (h : TmSpec t tm date) :
    date.dayNumber = t / 86400 := by
  have := h.seconds
  have := h.hour
  have := h.min
  have := h.sec
  omega

/-- Divisions of what is not negative, and words that hold what they are given. -/
theorem time64ToTm_eq (totalsecs offset : ℤ) {civil : CivilDay}
    (hcivil : civilDay ((totalsecs + offset) / 86400) = civil) (hmonth : civil.month < 2 ^ 31)
    (hday : civil.day < 2 ^ 31) (hyday : civil.dayOfYear < 2 ^ 31) :
    time64ToTm totalsecs offset =
      { tmSec := (totalsecs + offset) % 86400 % 3600 % 60
        tmMin := (totalsecs + offset) % 86400 % 3600 / 60
        tmHour := (totalsecs + offset) % 86400 / 3600
        tmMday := civil.day
        tmMon := civil.month
        tmYear := ((civil.year : ℤ) - 1900).bmod (2 ^ 64)
        tmWday := ((totalsecs + offset) / 86400 + 4) % 7
        tmYday := civil.dayOfYear } := by
  have hday_eq : dayAndRem totalsecs offset =
      ((totalsecs + offset) / 86400, (totalsecs + offset) % 86400) := dayAndRem_eq totalsecs offset
  have hrem := Int.emod_nonneg (totalsecs + offset) (show (86400 : ℤ) ≠ 0 by decide)
  rw [time64ToTm, hday_eq]
  dsimp only
  rw [hcivil]
  generalize (totalsecs + offset) % 86400 = rem at hrem ⊢
  generalize (totalsecs + offset) / 86400 = days
  have hhour : secsPerHour = 3600 := rfl
  have hmod : rem.tmod 3600 = rem % 3600 := Int.tmod_eq_emod_of_nonneg hrem
  have hmod_nonneg : 0 ≤ rem % 3600 := Int.emod_nonneg _ (by decide)
  have hwday : (if (4 + days).tmod 7 < 0 then (4 + days).tmod 7 + 7 else (4 + days).tmod 7) =
      (days + 4) % 7 := by
    have hsplit := Int.mul_tdiv_add_tmod (4 + days) 7
    have hlt := Int.tmod_lt_of_pos (4 + days) (show (0 : ℤ) < 7 by decide)
    have hgt := Int.lt_tmod_of_pos (4 + days) (show (0 : ℤ) < 7 by decide)
    generalize (4 + days).tmod 7 = m at hsplit hlt hgt ⊢
    split <;> omega
  rw [hhour, hmod, Int.tmod_eq_emod_of_nonneg hmod_nonneg, Int.tdiv_eq_ediv_of_nonneg hmod_nonneg,
    Int.tdiv_eq_ediv_of_nonneg hrem, hwday, Word32.wrap_natCast hmonth, Word32.wrap_natCast hday,
    Word32.wrap_natCast hyday]

/-- Of every second that the kernel counts, with every offset. -/
theorem time64ToTm_spec {totalsecs offset : ℤ} (hlo : -2 ^ 63 ≤ totalsecs)
    (hhi : totalsecs < 2 ^ 63) (hoffset : -2 ^ 31 ≤ offset) (hoffset' : offset < 2 ^ 31) :
    ∃! date, TmSpec (totalsecs + offset) (time64ToTm totalsecs offset) date := by
  obtain ⟨date, hnumber, hcivil⟩ :=
    civilDay_spec (show -2 ^ 60 ≤ (totalsecs + offset) / 86400 by omega) (by omega)
  refine ⟨date, ?_, ?_⟩
  · have hmonth := hcivil.month
    have hday := hcivil.day
    have hyday := hcivil.dayOfYear
    have hmonth_le := date.month_le
    have hday_lt := date.day_lt
    have hyday_lt := date.dayOfYear_lt
    rw [daysBeforeMonth_thirteen] at hyday_lt
    have hyday_le : date.dayOfYear < 366 := by split at hyday_lt <;> omega
    rw [time64ToTm_eq totalsecs offset rfl (by omega) (by omega) (by omega)]
    constructor
    case year => exact hcivil.year
    case wday => rw [hnumber]
    all_goals dsimp only
    all_goals omega
  · intro date' h
    exact Date.dayNumber_injective (h.dayNumber_eq.trans hnumber.symm)

/-- 2000-02-29, an hour east of Greenwich. -/
theorem time64ToTm_spec_leapDay :
    ∃! date, TmSpec (951782400 + 3600) (time64ToTm 951782400 3600) date :=
  time64ToTm_spec (by decide) (by decide) (by decide) (by decide)

/-- The first second is that of 1970-01-01. -/
theorem TmSpec.epoch {tm : Tm} {date : Date} (h : TmSpec 0 tm date) : date = Date.epoch := by
  apply Date.dayNumber_injective
  rw [h.dayNumber_eq, Date.dayNumber_epoch]
  rfl

/-- A day later it is the same time on the next date. -/
theorem TmSpec.next {t : ℤ} {tm tm' : Tm} {date date' : Date} (h : TmSpec t tm date)
    (h' : TmSpec (t + 86400) tm' date') :
    date' = date.next ∧ tm'.tmHour = tm.tmHour ∧ tm'.tmMin = tm.tmMin ∧ tm'.tmSec = tm.tmSec := by
  have hnumber := h.dayNumber_eq
  have hnumber' := h'.dayNumber_eq
  have hdate : date' = date.next := by
    apply Date.dayNumber_injective
    rw [Date.dayNumber_next]
    omega
  obtain ⟨hseconds, hhour, hmin, hsec, -⟩ := h
  obtain ⟨hseconds', hhour', hmin', hsec', -⟩ := h'
  refine ⟨hdate, ?_⟩
  omega

/-! ### The time that EP1-CF02A is given -/

namespace Ep1Cf02a

/-- The record stands for the microsecond `us`, and its weekday for the day, Monday being 1. -/
structure RtcTime.Means (rtcTime : RtcTime) (us : ℤ) (date : Date) : Prop where
  year : date.year = 2000 + rtcTime.year.toNat
  month : date.month = rtcTime.month.toNat
  day : date.day = rtcTime.date.toNat
  hour : rtcTime.hour.toNat < 24
  minute : rtcTime.minute.toNat < 60
  second : rtcTime.second.toNat < 60
  microsecond : rtcTime.microsecond < 1000000
  time : us = (86400 * date.dayNumber + 3600 * rtcTime.hour.toNat + 60 * rtcTime.minute.toNat +
    rtcTime.second.toNat) * 1000000 + rtcTime.microsecond
  weekday : (rtcTime.weekday.toNat : ℤ) = (date.dayNumber + 3) % 7 + 1

theorem toNat_ofInt_of_lt {x : ℤ} (h : 0 ≤ x) (hlt : x < 256) :
    ((UInt8.ofInt x).toNat : ℤ) = x := by
  rw [ByteOrder.natCast_toNat_ofInt]
  omega

/-- The dates of the years that a byte can count from 2000 on. -/
theorem year_bounds (date : Date) :
    2000 ≤ date.year ∧ date.year < 2256 ↔ 10957 ≤ date.dayNumber ∧ date.dayNumber < 104459 := by
  have hlo := date.year_lt_iff 2000
  have hhi := date.year_lt_iff 2256
  have h1970 : daysBeforeYear 1970 = 719162 := by decide
  have h2000 : daysBeforeYear 2000 = 730119 := by decide
  have h2256 : daysBeforeYear 2256 = 823621 := by decide
  rw [h1970, h2000] at hlo
  rw [h1970, h2256] at hhi
  omega

theorem RtcTime.Means.range {rtcTime : RtcTime} {sec usec : ℤ} {date : Date}
    (h : rtcTime.Means (sec * 1000000 + usec) date) (husec : 0 ≤ usec) (husec' : usec < 1000000) :
    946684800 ≤ sec ∧ sec < 9025257600 := by
  have hyear := h.year
  have hbyte := rtcTime.year.toNat_lt
  have hbounds := (year_bounds date).mp (by omega)
  have hhour := h.hour
  have hminute := h.minute
  have hsecond := h.second
  have hmicrosecond := h.microsecond
  have htime := h.time
  omega

theorem rtcTimeOfTm_means {tm : Tm} {date : Date} {sec nsec : ℤ} (h : TmSpec sec tm date)
    (hlo : 2000 ≤ date.year) (hhi : date.year < 2256) (hnsec : 0 ≤ nsec)
    (hnsec' : nsec < 1000000000) :
    (rtcTimeOfTm tm nsec).Means (sec * 1000000 + nsec / 1000) date := by
  obtain ⟨hseconds, hhour, hmin, hsec, hyear, hmon, hmday, -, hwday⟩ := h
  have hmonth_pos := date.month_pos
  have hmonth_le := date.month_le
  have hday_lt := date.day_lt
  have hmicro : Word32.ofInt (nsec.tdiv 1000) = (nsec / 1000).toNat := by
    rw [Int.tdiv_eq_ediv_of_nonneg hnsec, Word32.ofInt]
    omega
  have hy : ((UInt8.ofInt (tm.tmYear + 1900 - 2000)).toNat : ℤ) = date.year - 2000 := by
    rw [hyear, toNat_ofInt_of_lt (by omega) (by omega)]
    ring
  have hm : ((UInt8.ofInt (tm.tmMon + 1)).toNat : ℤ) = date.month := by
    rw [hmon, toNat_ofInt_of_lt (by omega) (by omega)]
    ring
  have hd : ((UInt8.ofInt tm.tmMday).toNat : ℤ) = date.day := by
    rw [hmday, toNat_ofInt_of_lt (by omega) (by omega)]
  have hh := toNat_ofInt_of_lt hhour.1 (by omega)
  have hmi := toNat_ofInt_of_lt hmin.1 (by omega)
  have hs := toNat_ofInt_of_lt hsec.1 (by omega)
  constructor
  case year =>
    change date.year = 2000 + ((UInt8.ofInt (tm.tmYear + 1900 - 2000)).toNat : ℤ)
    rw [hy]
    ring
  case month => exact (Int.ofNat_inj.mp hm).symm
  case day => exact (Int.ofNat_inj.mp hd).symm
  case hour =>
    change (UInt8.ofInt tm.tmHour).toNat < 24
    omega
  case minute =>
    change (UInt8.ofInt tm.tmMin).toNat < 60
    omega
  case second =>
    change (UInt8.ofInt tm.tmSec).toNat < 60
    omega
  case microsecond =>
    change Word32.ofInt (nsec.tdiv 1000) < 1000000
    omega
  case time =>
    change _ = (86400 * date.dayNumber + 3600 * ((UInt8.ofInt tm.tmHour).toNat : ℤ) +
      60 * ((UInt8.ofInt tm.tmMin).toNat : ℤ) + ((UInt8.ofInt tm.tmSec).toNat : ℤ)) * 1000000 +
        (Word32.ofInt (nsec.tdiv 1000) : ℤ)
    rw [hh, hmi, hs, ← hseconds, hmicro, Int.toNat_of_nonneg (by omega)]
  case weekday =>
    change ((if tm.tmWday = 0 then (7 : UInt8) else .ofInt tm.tmWday).toNat : ℤ) = _
    split
    next hzero =>
      have hseven : (7 : UInt8).toNat = 7 := rfl
      rw [hseven]
      omega
    next hne =>
      rw [toNat_ofInt_of_lt (by omega) (by omega)]
      omega

/-- What the unit is sent and sends back stands for the time that the kernel gave, exactly in the
years 2000 to 2255. -/
theorem setRtcTime_means {ts : Timespec64} (hlo : -2 ^ 63 ≤ ts.tvSec) (hhi : ts.tvSec < 2 ^ 63)
    (hnsec : 0 ≤ ts.tvNsec) (hnsec' : ts.tvNsec < 1000000000) (tail : List UInt8) :
    (∃ date, (parseResponseGetRtcTime (packSetRtcTime (getRealRtcTime ts) ++ tail)).Means
      (ts.tvSec * 1000000 + ts.tvNsec / 1000) date) ↔
      946684800 ≤ ts.tvSec ∧ ts.tvSec < 9025257600 := by
  have hmicro : (getRealRtcTime ts).microsecond < 2 ^ 32 := by
    change Word32.ofInt (ts.tvNsec.tdiv 1000) < 2 ^ 32
    rw [Word32.ofInt]
    omega
  have hrange : Setting.rtcTime.InRange (getRealRtcTime ts) := by
    refine ⟨?_, fun _ hid => by cases hid⟩
    intro f hf
    obtain rfl := List.mem_singleton.mp hf
    refine ⟨Int.natCast_nonneg _, ?_⟩
    change ((getRealRtcTime ts).microsecond : ℤ) < 256 ^ 4
    omega
  have hcodec : parseResponseGetRtcTime (packSetRtcTime (getRealRtcTime ts) ++ tail) =
      getRealRtcTime ts := Setting.parseResp_packReq hrange tail
  rw [hcodec]
  constructor
  · rintro ⟨date, h⟩
    exact h.range (by omega) (by omega)
  · rintro ⟨hsec, hsec'⟩
    obtain ⟨date, htm, -⟩ :=
      time64ToTm_spec hlo hhi (show -2 ^ 31 ≤ (0 : ℤ) by decide) (by decide)
    rw [Int.add_zero] at htm
    have hnumber := htm.dayNumber_eq
    obtain ⟨hyear, hyear'⟩ := (year_bounds date).mpr ⟨by omega, by omega⟩
    exact ⟨date, rtcTimeOfTm_means htm hyear hyear' hnsec hnsec'⟩

theorem setRtcTime_means_leapDay :
    ∃ date, (parseResponseGetRtcTime
      (packSetRtcTime (getRealRtcTime ⟨951782400, 999999999⟩) ++ [0xAA])).Means
        (951782400 * 1000000 + 999999999 / 1000) date :=
  (setRtcTime_means (by decide) (by decide) (by decide) (by decide) [0xAA]).mpr
    ⟨by decide, by decide⟩

end Ep1Cf02a

end AptUsbtrx
