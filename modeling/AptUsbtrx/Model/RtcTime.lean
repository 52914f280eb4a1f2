import AptUsbtrx.Model.Ep1Cf02aSet
import AptUsbtrx.Shared.Word32
import Mathlib.Data.Int.DivMod

/-! # The time of the real-time clock

`time64_to_tm` of `ep1_cf02a_fops.c`, for a `long` of 64 bits, and the structure that
EP1-CF02A is sent. -/

namespace AptUsbtrx

/-- `struct tm`, without `tm_isdst`. -/
structure Tm where
  tmSec : ℤ
  tmMin : ℤ
  tmHour : ℤ
  tmMday : ℤ
  tmMon : ℤ
  tmYear : ℤ
  tmWday : ℤ
  tmYday : ℤ
  deriving DecidableEq

def secsPerHour : ℤ := 60 * 60
def secsPerDay : ℤ := secsPerHour * 24

/-- `while (rem < 0)` of `time64_to_tm` -/
def raiseRem (days rem : ℤ) : ℤ × ℤ :=
  if rem < 0 then raiseRem (days - 1) (rem + secsPerDay) else (days, rem)
  termination_by (-rem).toNat
  decreasing_by simp only [secsPerDay, secsPerHour]; omega

/-- `while (rem >= SECS_PER_DAY)` of `time64_to_tm` -/
def lowerRem (days rem : ℤ) : ℤ × ℤ :=
  if rem ≥ secsPerDay then lowerRem (days + 1) (rem - secsPerDay) else (days, rem)
  termination_by rem.toNat
  decreasing_by simp only [secsPerDay, secsPerHour] at *; omega

/-- The day and the second of the day, `days` and `rem` behind the loops. -/
def dayAndRem (totalsecs offset : ℤ) : ℤ × ℤ :=
  let days := totalsecs.tdiv secsPerDay
  let rem := totalsecs.tmod secsPerDay + offset
  let (days, rem) := raiseRem days rem
  lowerRem days rem

/-- The variables of `time64_to_tm` that the date is made of. -/
structure CivilDay where
  year : ℕ
  month : ℕ
  day : ℕ
  dayOfYear : ℕ
  deriving DecidableEq

/-- From `udays` on, in the words of 32 and 64 bits that the code has. -/
def civilDay (days : ℤ) : CivilDay :=
  let udays := ((days % 2 ^ 64).toNat + 2305843009213814918) % 2 ^ 64
  let u64tmp := (4 * udays + 3) % 2 ^ 64
  let century := u64tmp / 146097
  let dayOfCentury := u64tmp % 146097 / 4 % 2 ^ 32
  let u32tmp := Word32.add (Word32.mul 4 dayOfCentury) 3
  let u64tmp := 2939745 * u32tmp % 2 ^ 64
  let yearOfCentury := u64tmp / 2 ^ 32
  let dayOfYear := u64tmp % 2 ^ 32 / 2939745 / 4
  let year := (100 * century + yearOfCentury) % 2 ^ 64
  let isLeapYear := if yearOfCentury ≠ 0 then yearOfCentury % 4 = 0 else century % 4 = 0
  let u32tmp := Word32.add (Word32.mul 2141 dayOfYear) 132377
  let month := u32tmp / 2 ^ 16
  let day := u32tmp % 2 ^ 16 / 2141
  if dayOfYear ≥ 306 then
    { year := (year + 1 + (2 ^ 64 - 6313183731940000)) % 2 ^ 64
      month := Word32.sub month 12
      day := Word32.add day 1
      dayOfYear := Word32.add dayOfYear (2 ^ 32 - 306) }
  else
    { year := (year + (2 ^ 64 - 6313183731940000)) % 2 ^ 64
      month := month
      day := Word32.add day 1
      dayOfYear := Word32.add dayOfYear (31 + 28 + if isLeapYear then 1 else 0) }

/-- `time64_to_tm` -/
def time64ToTm (totalsecs offset : ℤ) : Tm :=
  let (days, rem) := dayAndRem totalsecs offset
  let wday := (4 + days).tmod 7
  let civil := civilDay days
  { tmSec := (rem.tmod secsPerHour).tmod 60
    tmMin := (rem.tmod secsPerHour).tdiv 60
    tmHour := rem.tdiv secsPerHour
    tmMday := Word32.wrap civil.day
    tmMon := Word32.wrap civil.month
    tmYear := ((civil.year : ℤ) - 1900).bmod (2 ^ 64)
    tmWday := if wday < 0 then wday + 7 else wday
    tmYday := Word32.wrap civil.dayOfYear }

namespace Ep1Cf02a

/-- `get_real_rtc_time` behind `time64_to_tm` -/
def rtcTimeOfTm (tm : Tm) (tvNsec : ℤ) : RtcTime where
  weekday := if tm.tmWday = 0 then 7 else .ofInt tm.tmWday
  month := .ofInt (tm.tmMon + 1)
  date := .ofInt tm.tmMday
  year := .ofInt (tm.tmYear + 1900 - 2000)
  hour := .ofInt tm.tmHour
  minute := .ofInt tm.tmMin
  second := .ofInt tm.tmSec
  microsecond := Word32.ofInt (tvNsec.tdiv 1000)

/-- `get_real_rtc_time`, with the time that `ktime_get_real_ts64` returns. -/
def getRealRtcTime (ts : Timespec64) : RtcTime :=
  rtcTimeOfTm (time64ToTm ts.tvSec 0) ts.tvNsec

end Ep1Cf02a

end AptUsbtrx
