import AptUsbtrx.Verification.BitTiming.Search

/-! # The calculation of a bit timing

The outcomes of `ep1_cf02a_can_calc_bittiming`, and the inputs for which it divides by zero. -/

namespace AptUsbtrx.Ep1Cf02a

open Word32

variable {limits : Limits} {clockFreq bitrate nominal samplePoint tseg : ℕ} {s : Search}
  {r : SplitResult}

/-! ### The divisions of the search -/

/-- One of the products of a bit time and the bitrate is zero, if only in its low 32 bits. -/
def ZeroProduct (limits : Limits) (bitrate : ℕ) : Prop :=
  2 ^ 32 ∣ 2 * limits.const.tseg2Max * bitrate

/-- The limit of the first segment, a power of two, has more twos than any other bit time. -/
theorem product_ne_zero (h : ¬ ZeroProduct limits bitrate) (hin : InRange limits tseg) :
    mul (tseg / 2 + 1) bitrate ≠ 0 := by
  intro hzero
  apply h
  obtain ⟨e, j, hej, hpow⟩ : ∃ e j, e + j = 32 ∧ 2 * limits.const.tseg2Max = 2 ^ j := by
    cases limits
    · exact ⟨24, 8, rfl, rfl⟩
    · exact ⟨27, 5, rfl, rfl⟩
  have hdvd : 2 ^ (e + j) ∣ (tseg / 2 + 1) * bitrate := hej ▸ Nat.dvd_of_mod_eq_zero hzero
  have hlt : tseg / 2 + 1 < 2 ^ (j + 1) := by
    have hhalf := hin.half_le
    have hmax := limits.tseg2Max_bounds
    rw [Nat.pow_succ, ← hpow]
    omega
  have hbitrate := two_pow_dvd_of_dvd_mul (Nat.succ_pos _) hlt hdvd
  rw [ZeroProduct, hpow, ← hej, Nat.pow_add, Nat.mul_comm]
  exact Nat.mul_dvd_mul_left _ hbitrate

theorem searchBody_ne_stop {t : Search} (h : ZeroProduct limits bitrate) (hclock : clockFreq < 2 ^ 32)
    (hbitrate : bitrate < 2 ^ 32) (hin : InRange limits tseg)
    (hlong : 2 * limits.const.tseg2Max ≤ tseg / 2) (htop : s.bestSamplePointError ≤ top) :
    searchBody limits.const clockFreq bitrate nominal tseg s ≠ some (.stop t) := by
  intro hbody
  by_cases hzero : mul (tseg / 2 + 1) bitrate = 0
  · rw [searchBody_eq_none hin hzero] at hbody
    cases hbody
  · cases searchBody_round hin hzero htop hbody with
    | stopped r hadm hrate =>
        -- the bitrate is hit with more than `2 * tseg2Max` quanta, so it is too small for `h`
        have hmax := limits.tseg2Max_bounds
        have hpos : 0 < bitrate := Nat.pos_of_ne_zero fun hb => hzero (by rw [hb]; rfl)
        rw [rateError, abs_sub_eq_zero_iff hbitrate ((Nat.div_le_self _ _).trans_lt hclock)] at hrate
        have hquanta : 2 * limits.const.tseg2Max + 1 ≤
            prescaler clockFreq bitrate tseg * (tseg / 2 + 1) :=
          (show _ ≤ tseg / 2 + 1 by omega).trans (Nat.le_mul_of_pos_left _ hadm.1)
        have hsmall : (2 * limits.const.tseg2Max + 1) * bitrate ≤ clockFreq := by
          rw [hrate]
          exact (Nat.mul_le_mul_right _ hquanta).trans (Nat.mul_div_le _ _)
        have hlarge : 2 ^ 32 ≤ 2 * limits.const.tseg2Max * bitrate :=
          Nat.le_of_dvd (Nat.mul_pos (by omega) hpos) h
        rw [Nat.add_mul] at hsmall
        omega

theorem search_eq_none_iff (hclock : clockFreq < 2 ^ 32) (hbitrate : bitrate < 2 ^ 32) :
    search limits.const clockFreq bitrate nominal = none ↔ ZeroProduct limits bitrate := by
  have hmax := limits.tseg2Max_bounds
  have hin : ∀ v, 4 ≤ v → v < 4 + (6 * limits.const.tseg2Max - 2) → InRange limits v :=
    fun v hlow hhigh => ⟨hlow, by omega⟩
  rw [search_eq]
  constructor
  · intro hnone
    by_contra h
    refine CountDown.run_ne_none (I := fun u => u.bestSamplePointError ≤ top) ?_ ?_
      (Nat.le_refl top) hnone
    · intro v u hlow hhigh htop hbody
      have hin := hin v hlow hhigh
      obtain ⟨flow, hflow, -⟩ := @searchBody_cases limits clockFreq bitrate nominal v u hin
        (product_ne_zero h hin) htop
      rw [hflow] at hbody
      cases hbody
    · intro v u u' hlow hhigh htop hbody
      have hin := hin v hlow hhigh
      exact (searchBody_round hin (product_ne_zero h hin) htop hbody).bestSamplePointError_le htop
  · intro h
    -- the first round with `2 * tseg2Max` quanta
    have hfirst : (4 * limits.const.tseg2Max - 1) / 2 + 1 = 2 * limits.const.tseg2Max := by omega
    have hzero : mul (2 * limits.const.tseg2Max) bitrate = 0 := Nat.mod_eq_zero_of_dvd h
    refine CountDown.run_eq_none (I := fun u => u.bestSamplePointError ≤ top)
      (w := 4 * limits.const.tseg2Max - 1) (by omega) (by omega) (fun u => ?_) ?_ ?_ (Nat.le_refl top)
    · exact searchBody_eq_none (hin _ (by omega) (by omega)) (hfirst ▸ hzero)
    · intro v u u' hlow hhigh htop
      exact searchBody_ne_stop h hclock hbitrate (hin v (by omega) hhigh) (by omega) htop
    · intro v u u' hlow hhigh htop hbody
      have hin := hin v (by omega) hhigh
      by_cases hzero : mul (v / 2 + 1) bitrate = 0
      · rw [searchBody_eq_none hin hzero] at hbody
        cases hbody
      · exact (searchBody_round hin hzero htop hbody).bestSamplePointError_le htop

theorem exists_search (hclock : clockFreq < 2 ^ 32) (hbitrate : bitrate < 2 ^ 32)
    (h : ¬ ZeroProduct limits bitrate) (nominal : ℕ) :
    ∃ s, search limits.const clockFreq bitrate nominal = some s :=
  Option.ne_none_iff_exists'.mp (mt (search_eq_none_iff hclock hbitrate).mp h)

/-! ### The outcomes -/

/-- The `bt` for which `ep1_cf02a_calc_bit_timing` calls the calculation. -/
def request (bitrate samplePoint : ℕ) : CanBittiming := ⟨bitrate, samplePoint, 0, 0, 0, 0, 0, 0⟩

/-- What the calculation leaves in `bt` for a bit time of `tseg` quanta and its split. -/
def calculated (clockFreq brp tseg : ℕ) (r : SplitResult) : CanBittiming where
  bitrate := clockFreq / (brp * (tseg + 1))
  samplePoint := r.samplePoint
  tq := brp * 1000 * 1000 * 1000 / clockFreq % 2 ^ 32
  propSeg := r.tseg1 / 2
  phaseSeg1 := r.tseg1 - r.tseg1 / 2
  phaseSeg2 := r.tseg2
  sjw := max 1 (min (r.tseg1 - r.tseg1 / 2) (r.tseg2 / 2))
  brp := brp

theorem bitrateErrorTooHigh_eq (hpos : 0 < bitrate) (error : ℕ) :
    bitrateErrorTooHigh error bitrate =
      some (decide (canCalcMaxError < error * 1000 / bitrate % 2 ^ 32)) := by
  rw [bitrateErrorTooHigh]
  split
  next => rw [udiv_of_pos hpos, Option.bind_eq_bind, Option.bind_some]
  next hzero =>
    rw [not_not] at hzero
    rw [hzero]
    simp

/-- The segments that are stored add up to the bit time again. -/
theorem canBitTime_eq {bt : CanBittiming} (hr : Accepts limits nominal tseg r)
    (htseg : tseg ≤ 3 * limits.const.tseg2Max) (hprop : bt.propSeg = r.tseg1 / 2)
    (hphase1 : bt.phaseSeg1 = r.tseg1 - r.tseg1 / 2) (hphase2 : bt.phaseSeg2 = r.tseg2) :
    canBitTime bt = tseg + 1 := by
  have hmax := limits.tseg2Max_bounds
  have hsum := hr.sum htseg
  rw [canBitTime, canSyncSeg, add, add, add, hprop, hphase1, hphase2]
  omega

theorem canSjwSetDefault_zero (rate sample tq propSeg phaseSeg1 phaseSeg2 brp : ℕ) :
    canSjwSetDefault ⟨rate, sample, tq, propSeg, phaseSeg1, phaseSeg2, 0, brp⟩ =
      ⟨rate, sample, tq, propSeg, phaseSeg1, phaseSeg2, max 1 (min phaseSeg1 (phaseSeg2 / 2)), brp⟩ :=
  rfl

section

variable (hsearch : search limits.const clockFreq bitrate
  (samplePointNominal (request bitrate samplePoint)) = some s) (hpos : 0 < bitrate)

include hsearch hpos

theorem canCalcBittiming_of_tooHigh
    (hhigh : canCalcMaxError < s.bestBitrateError * 1000 / bitrate % 2 ^ 32) :
    canCalcBittiming clockFreq (request bitrate samplePoint) limits.const =
      some (.error (-einval)) := by
  have hrequest : (request bitrate samplePoint).bitrate = bitrate := rfl
  simp only [canCalcBittiming, hrequest, hsearch, bitrateErrorTooHigh_eq hpos, hhigh,
    Option.bind_eq_bind, Option.bind_some, decide_true, if_true]

variable
  (hlow : ¬ canCalcMaxError < s.bestBitrateError * 1000 / bitrate % 2 ^ 32)
  (hr : Accepts limits (samplePointNominal (request bitrate samplePoint)) s.bestTseg r)

include hlow hr

theorem canCalcBittiming_of_zero_clock (hclock : clockFreq = 0) :
    canCalcBittiming clockFreq (request bitrate samplePoint) limits.const = none := by
  have hrequest : (request bitrate samplePoint).bitrate = bitrate := rfl
  have hdiv := udiv_eq_none_iff (a := s.bestBrp * 1000 * 1000 * 1000).mpr hclock
  simp only [canCalcBittiming, hrequest, hsearch, bitrateErrorTooHigh_eq hpos, hlow, hr.update, hdiv,
    Option.bind_eq_bind, Option.bind_some, Option.bind_none, decide_false, Bool.false_eq_true,
    if_false]

/-- The calculation ends with the check of the jump width. -/
theorem canCalcBittiming_of_best (hclock : 0 < clockFreq)
    (htseg : s.bestTseg ≤ 3 * limits.const.tseg2Max) (hbrp : 1 ≤ s.bestBrp)
    (hbrpMax : s.bestBrp ≤ limits.const.brpMax) :
    canCalcBittiming clockFreq (request bitrate samplePoint) limits.const =
      if canSjwCheck (calculated clockFreq s.bestBrp s.bestTseg r) limits.const ≠ 0 then
        some (.error (canSjwCheck (calculated clockFreq s.bestBrp s.bestTseg r) limits.const))
      else some (.ok (calculated clockFreq s.bestBrp s.bestTseg r)) := by
  have hmax := limits.tseg2Max_bounds
  have hmaxBrp := limits.const_brpMax_le
  have hsum := hr.sum htseg
  have hrequest : (request bitrate samplePoint).bitrate = bitrate := rfl
  have hsjw : (request bitrate samplePoint).sjw = 0 := rfl
  have hphase : sub r.tseg1 (r.tseg1 / 2) = r.tseg1 - r.tseg1 / 2 :=
    sub_of_le (by omega) (Nat.div_le_self _ _)
  have hproduct : s.bestBrp * (s.bestTseg + 1) ≤ 512 * 385 := Nat.mul_le_mul (by omega) (by omega)
  have hrate : udiv clockFreq (mul s.bestBrp (s.bestTseg + 1)) =
      some (clockFreq / (s.bestBrp * (s.bestTseg + 1))) := by
    rw [mul_of_lt (by omega), udiv_of_pos (Nat.mul_pos hbrp (Nat.succ_pos _))]
  simp only [canCalcBittiming, hrequest, hsearch, bitrateErrorTooHigh_eq hpos, hlow, hr.update,
    udiv_of_pos hclock, hphase, hsjw, canSjwSetDefault_zero, Option.bind_eq_bind, Option.bind_some,
    decide_false, Bool.false_eq_true, if_false]
  rw [canBitTime_eq hr htseg rfl rfl rfl, hrate, Option.bind_some]
  rfl

end

/-- When nothing was found, the error of the bitrate counts as too high. -/
theorem tooHigh_top (hpos : 0 < bitrate) (hbitrate : bitrate < 2 ^ 32) :
    canCalcMaxError < top * 1000 / bitrate % 2 ^ 32 := by
  rcases Nat.lt_or_ge bitrate 1000 with hsmall | hlarge
  · -- the quotient does not fit into 32 bits
    have hall : ∀ b < 1000, 0 < b → canCalcMaxError < top * 1000 / b % 2 ^ 32 := by decide +kernel
    exact hall bitrate hsmall hpos
  · have hlow : 1000 ≤ top * 1000 / bitrate := by
      rw [Nat.le_div_iff_mul_le hpos, top]
      omega
    have hhigh : top * 1000 / bitrate ≤ top := by
      rw [Nat.div_le_iff_le_mul_add_pred hpos, top]
      omega
    rw [Nat.mod_eq_of_lt (hhigh.trans_lt (by decide)), canCalcMaxError]
    omega

/-- What a calculation that succeeds has chosen: a value of `tseg` in the loop and its split. -/
structure Chosen (limits : Limits) (clockFreq bitrate nominal v : ℕ) (r : SplitResult) : Prop where
  clock_pos : 0 < clockFreq
  inRange : InRange limits v
  admissible : Admissible limits clockFreq bitrate v
  accepts : Accepts limits nominal (v / 2) r
  least : ∀ w, InRange limits w → Admissible limits clockFreq bitrate w →
    Suits limits nominal (w / 2) → rateError clockFreq bitrate v ≤ rateError clockFreq bitrate w
  low : rateError clockFreq bitrate v * 1000 / bitrate % 2 ^ 32 ≤ canCalcMaxError
  sjw : canSjwCheck (calculated clockFreq (prescaler clockFreq bitrate v) (v / 2) r) limits.const = 0

theorem canCalcBittiming_eq_ok {bt : CanBittiming} (hclock : clockFreq < 2 ^ 32)
    (hbitrate : bitrate < 2 ^ 32) (hzero : ¬ ZeroProduct limits bitrate)
    (h : canCalcBittiming clockFreq (request bitrate samplePoint) limits.const = some (.ok bt)) :
    ∃ v r, Chosen limits clockFreq bitrate (samplePointNominal (request bitrate samplePoint)) v r ∧
      bt = calculated clockFreq (prescaler clockFreq bitrate v) (v / 2) r := by
  have hpos : 0 < bitrate := Nat.pos_of_ne_zero fun hb => hzero (hb ▸ Nat.dvd_zero _)
  obtain ⟨s, hsearch⟩ := exists_search hclock hbitrate hzero
    (samplePointNominal (request bitrate samplePoint))
  by_cases hhigh : canCalcMaxError < s.bestBitrateError * 1000 / bitrate % 2 ^ 32
  · rw [canCalcBittiming_of_tooHigh hsearch hpos hhigh] at h
    cases h
  cases (search_found (fun v hin => product_ne_zero hzero hin) hsearch).1 with
  | nothing htop => exact absurd (htop ▸ tooHigh_top hpos hbitrate) hhigh
  | best v r hv hin hadm hr herror htseg hbrp hleast =>
      rw [← htseg] at hr
      rcases Nat.eq_zero_or_pos clockFreq with hzeroClock | hclock
      · rw [canCalcBittiming_of_zero_clock hsearch hpos hhigh hr hzeroClock] at h
        cases h
      · rw [canCalcBittiming_of_best hsearch hpos hhigh hr hclock (htseg ▸ hin.half_le)
          (hbrp ▸ hadm.1) (hbrp ▸ hadm.2), htseg, hbrp] at h
        split at h
        next => cases h
        next hsjw =>
          cases h
          rw [herror, Nat.not_lt] at hhigh
          rw [htseg] at hr
          exact ⟨v, r, ⟨hclock, hin, hadm, hr, fun w hw hadmw => hleast w hw.1 hw hadmw, hhigh,
            not_not.mp hsjw⟩, rfl⟩

/-! ### The divisions after the search -/

/-- With a clock of 0 Hz the rate is 0, and the error of a negative bitrate can be a small one. -/
theorem tooHigh_abs_iff (hpos : 0 < bitrate) (hbitrate : bitrate < 2 ^ 32) :
    ¬ canCalcMaxError < abs bitrate * 1000 / bitrate % 2 ^ 32 ↔ 4086553089 ≤ bitrate := by
  rw [canCalcMaxError, Word32.abs]
  split
  next hsmall =>
    rw [Nat.mul_comm, Nat.mul_div_cancel _ hpos]
    omega
  next hlarge =>
    have hquotient : (2 ^ 32 - bitrate) * 1000 / bitrate ≤ 1000 := by
      apply Nat.div_le_of_le_mul
      omega
    rw [Nat.mod_eq_of_lt (by omega), Nat.not_lt, ← Nat.lt_succ_iff, Nat.div_lt_iff_lt_mul hpos]
    omega

theorem Accepts.le_nominal_of_tseg2Max (hr : Accepts limits nominal tseg r)
    (htseg : tseg ≤ 3 * limits.const.tseg2Max) : 1000 / (limits.const.tseg2Max + 1) ≤ nominal := by
  refine le_trans ?_ hr.le_nominal
  rw [hr.samplePoint_eq, splitSamplePoint, Nat.le_div_iff_mul_le (Nat.succ_pos _)]
  have hdiv := Nat.div_mul_le_self 1000 (limits.const.tseg2Max + 1)
  have hbits : tseg + 1 ≤ (limits.const.tseg2Max + 1) * (r.tseg1 + 1) := by
    rcases hr.cases htseg with hin | hwrapped
    · have hsum := hin.sum
      have htseg2 := hin.tseg2_le
      have htseg1 := Nat.le_mul_of_pos_right limits.const.tseg2Max (Nat.add_one_pos r.tseg1)
      rw [Nat.add_mul]
      dsimp only at hsum htseg2
      omega
    · have hlt := hwrapped.tseg_lt
      exact (Nat.succ_le_succ (Nat.le_of_lt hlt)).trans (Nat.le_mul_of_pos_right _ (Nat.succ_pos _))
  calc 1000 / (limits.const.tseg2Max + 1) * (tseg + 1)
      ≤ 1000 / (limits.const.tseg2Max + 1) * ((limits.const.tseg2Max + 1) * (r.tseg1 + 1)) :=
        Nat.mul_le_mul_left _ hbits
    _ = 1000 / (limits.const.tseg2Max + 1) * (limits.const.tseg2Max + 1) * (r.tseg1 + 1) :=
        (Nat.mul_assoc _ _ _).symm
    _ ≤ 1000 * (r.tseg1 + 1) := Nat.mul_le_mul_right _ hdiv

theorem splitTseg_tseg2Max (limits : Limits) (hsmall : nominal < 1000) :
    (splitTseg limits.const nominal limits.const.tseg2Max 0).1 =
      nominal * (limits.const.tseg2Max + 1) / 1000 - 1 := by
  have hmax := limits.tseg2Max_bounds
  have hbits : add limits.const.tseg2Max canSyncSeg = limits.const.tseg2Max + 1 :=
    add_of_lt (by simp only [canSyncSeg]; omega)
  have hproduct : nominal * (limits.const.tseg2Max + 1) ≤ 999 * (limits.const.tseg2Max + 1) :=
    Nat.mul_le_mul_right _ (by omega)
  rw [splitTseg]
  simp only [Limits.const_tseg2Min, Limits.const_tseg1Max]
  rw [hbits, mul_of_lt (by omega)]
  generalize nominal * (limits.const.tseg2Max + 1) = product at hproduct
  rw [sub_of_le (a := limits.const.tseg2Max + 1) (by omega) (by omega),
    sub_of_le (by omega) (Nat.zero_le _), sub_of_le (by omega) (by omega), if_neg (by omega)]
  dsimp only
  omega

/-- This bit time can be split whenever one can. -/
theorem suits_tseg2Max (h : 1000 / (limits.const.tseg2Max + 1) ≤ nominal) :
    Suits limits nominal limits.const.tseg2Max := by
  left
  rw [roundResult]
  dsimp only
  rcases Nat.lt_or_ge nominal 1000 with hsmall | hlarge
  · have hproduct := Nat.mul_div_le (nominal * (limits.const.tseg2Max + 1)) 1000
    rw [splitSamplePoint, splitTseg_tseg2Max limits hsmall]
    rcases Nat.eq_zero_or_pos (nominal * (limits.const.tseg2Max + 1) / 1000) with hzero | hpos
    · rw [hzero]
      exact h
    · rw [Nat.sub_add_cancel hpos]
      exact Nat.div_le_of_le_mul (hproduct.trans_eq (Nat.mul_comm _ _))
  · have hin := inLimits_of_le nominal 0 (Nat.le_refl limits.const.tseg2Max)
      (Nat.le_mul_of_pos_left _ (by decide))
    exact hin.samplePoint_le.trans hlarge

theorem le_samplePointNominal_iff (hlarge : 800000 < bitrate) :
    1000 / (limits.const.tseg2Max + 1) ≤ samplePointNominal (request bitrate samplePoint) ↔
      samplePoint = 0 ∨ 1000 / (limits.const.tseg2Max + 1) ≤ samplePoint := by
  have hbounds : 0 < 1000 / (limits.const.tseg2Max + 1) ∧
      1000 / (limits.const.tseg2Max + 1) ≤ 750 := by
    cases limits <;> decide
  have hbitrate : (request bitrate samplePoint).bitrate > 800000 := hlarge
  rw [samplePointNominal, if_pos hbitrate]
  change _ ≤ (if samplePoint ≠ 0 then samplePoint else 750) ↔ _
  split <;> omega

/-- A clock of 0 Hz with a bitrate from -208414207 to -1, which the rate 0 is close enough to, and a
sample point for which there is a split. -/
structure ZeroClock (limits : Limits) (clockFreq bitrate samplePoint : ℕ) : Prop where
  clock : clockFreq = 0
  bitrate : 4086553089 ≤ bitrate
  samplePoint : samplePoint = 0 ∨ 1000 / (limits.const.tseg2Max + 1) ≤ samplePoint

theorem rateError_zero_clock (hbitrate : bitrate < 2 ^ 32) (tseg : ℕ) :
    rateError 0 bitrate tseg = abs bitrate := by
  rw [rateError, Nat.zero_div, sub, Nat.sub_zero, Nat.add_mod_right, Nat.mod_eq_of_lt hbitrate]

theorem Found.zeroClock_iff (hfound : Found limits 0 bitrate
    (samplePointNominal (request bitrate samplePoint)) 4 s) (hpos : 0 < bitrate)
    (hbitrate : bitrate < 2 ^ 32) :
    ¬ canCalcMaxError < s.bestBitrateError * 1000 / bitrate % 2 ^ 32 ↔
      ZeroClock limits 0 bitrate samplePoint := by
  have hmax := limits.tseg2Max_bounds
  cases hfound with
  | nothing htop hnone =>
      rw [htop]
      refine ⟨fun h => absurd (tooHigh_top hpos hbitrate) h, fun hzero => ?_⟩
      have hlarge := hzero.bitrate
      have hin : InRange limits (2 * limits.const.tseg2Max + 1) := ⟨by omega, by omega⟩
      have hhalf : (2 * limits.const.tseg2Max + 1) / 2 = limits.const.tseg2Max := by omega
      have hone : prescaler 0 bitrate (2 * limits.const.tseg2Max + 1) = 1 := by
        rw [prescaler, Nat.zero_div, add]
        omega
      have hadm : Admissible limits 0 bitrate (2 * limits.const.tseg2Max + 1) := by
        rw [Admissible, hone]
        exact ⟨Nat.le_refl 1, by cases limits <;> decide⟩
      refine absurd ?_ (hnone _ hin.1 hin hadm)
      rw [hhalf]
      exact suits_tseg2Max ((le_samplePointNominal_iff (by omega)).mpr hzero.samplePoint)
  | best v r _ hin _ hr herror _ _ _ =>
      rw [herror, rateError_zero_clock hbitrate, tooHigh_abs_iff hpos hbitrate]
      refine ⟨fun hlarge => ⟨rfl, hlarge, ?_⟩, ZeroClock.bitrate⟩
      exact (le_samplePointNominal_iff (by omega)).mp (hr.le_nominal_of_tseg2Max hin.half_le)

theorem canCalcBittiming_eq_none_iff (hclock : clockFreq < 2 ^ 32) (hbitrate : bitrate < 2 ^ 32) :
    canCalcBittiming clockFreq (request bitrate samplePoint) limits.const = none ↔
      ZeroProduct limits bitrate ∨ ZeroClock limits clockFreq bitrate samplePoint := by
  by_cases hzero : ZeroProduct limits bitrate
  · have hnone := (@search_eq_none_iff limits clockFreq bitrate
      (samplePointNominal (request bitrate samplePoint)) hclock hbitrate).mpr hzero
    refine iff_of_true ?_ (.inl hzero)
    rw [canCalcBittiming]
    exact (congrArg (Option.bind · _) hnone).trans (Option.bind_none _)
  have hpos : 0 < bitrate := Nat.pos_of_ne_zero fun hb => hzero (hb ▸ Nat.dvd_zero _)
  obtain ⟨s, hsearch⟩ := exists_search hclock hbitrate hzero
    (samplePointNominal (request bitrate samplePoint))
  have hfound := (search_found (fun v hin => product_ne_zero hzero hin) hsearch).1
  rw [or_iff_right hzero]
  rcases Nat.eq_zero_or_pos clockFreq with rfl | hclock
  · rw [← hfound.zeroClock_iff hpos hbitrate]
    by_cases hhigh : canCalcMaxError < s.bestBitrateError * 1000 / bitrate % 2 ^ 32
    · rw [canCalcBittiming_of_tooHigh hsearch hpos hhigh]
      exact iff_of_false (Option.some_ne_none _) (not_not.mpr hhigh)
    · cases hfound with
      | nothing htop => exact absurd (htop ▸ tooHigh_top hpos hbitrate) hhigh
      | best v r _ _ _ hr _ htseg =>
          rw [← htseg] at hr
          exact iff_of_true (canCalcBittiming_of_zero_clock hsearch hpos hhigh hr rfl) hhigh
  · refine iff_of_false ?_ fun hzero => Nat.ne_of_gt hclock hzero.clock
    by_cases hhigh : canCalcMaxError < s.bestBitrateError * 1000 / bitrate % 2 ^ 32
    · rw [canCalcBittiming_of_tooHigh hsearch hpos hhigh]
      exact Option.some_ne_none _
    · cases hfound with
      | nothing htop => exact absurd (htop ▸ tooHigh_top hpos hbitrate) hhigh
      | best v r _ hin hadm hr _ htseg hbrp =>
          rw [← htseg] at hr
          rw [canCalcBittiming_of_best hsearch hpos hhigh hr hclock (htseg ▸ hin.half_le)
            (hbrp ▸ hadm.1) (hbrp ▸ hadm.2)]
          split <;> exact Option.some_ne_none _

theorem calcBitTiming_eq_none_iff (limits : Limits) (canClock bitrate samplePoint : ℤ) :
    calcBitTiming (some canClock) bitrate samplePoint limits.const = none ↔
      canCalcBittiming (ofInt canClock) (request (ofInt bitrate) (ofInt samplePoint))
        limits.const = none := by
  rw [calcBitTiming, ← request]
  cases canCalcBittiming (ofInt canClock) (request (ofInt bitrate) (ofInt samplePoint))
    limits.const with
  | none => simp
  | some result => cases result <;> simp

/-- The computation divides by zero exactly for these bitrates, and for these with a clock of 0 Hz. -/
theorem calcBitTiming_ne_none_iff (limits : Limits) (canClock bitrate samplePoint : ℤ) :
    calcBitTiming (some canClock) bitrate samplePoint limits.const ≠ none ↔
      ¬ ZeroProduct limits (ofInt bitrate) ∧
        ¬ ZeroClock limits (ofInt canClock) (ofInt bitrate) (ofInt samplePoint) := by
  rw [← not_or, ← canCalcBittiming_eq_none_iff (ofInt_lt _) (ofInt_lt _), ← calcBitTiming_eq_none_iff]

theorem calcBitTiming_zero_bitrate :
    calcBitTiming (some 80000000) 0 800 Limits.nominal.const = none := by
  decide +kernel

end AptUsbtrx.Ep1Cf02a
