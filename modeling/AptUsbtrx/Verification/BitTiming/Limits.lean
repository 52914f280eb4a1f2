import AptUsbtrx.Verification.BitTiming.Calculation
import Mathlib.Data.Nat.Dist

/-! # Calculated timings in their limits

Which calculated bit timings are accepted by `ep1_cf02a_check_bit_timing`, and how far they are from
the bitrate and the sample point that were asked for. -/

namespace AptUsbtrx.Ep1Cf02a

open Word32

variable {limits : Limits} {clockFreq bitrate nominal brp tseg v : ℕ} {r : SplitResult}

/-! ### The candidates without overflow -/

/-- A bit time of `tseg` quanta behind the synchronization segment and a prescaler next to the
quotient. -/
structure Candidate (limits : Limits) (clockFreq bitrate brp tseg : ℕ) : Prop where
  two_le : 2 ≤ tseg
  tseg_le : tseg ≤ 3 * limits.const.tseg2Max
  brp_pos : 1 ≤ brp
  brp_le : brp ≤ limits.const.brpMax
  rounded : brp = clockFreq / ((tseg + 1) * bitrate) ∨
    brp = clockFreq / ((tseg + 1) * bitrate) + 1

/-- How far the rate of a candidate is from the bitrate. -/
def rateDist (clockFreq bitrate brp tseg : ℕ) : ℕ :=
  Nat.dist bitrate (clockFreq / (brp * (tseg + 1)))

/-- The products of 32 bits do not overflow: that of the longest bit time and the bitrate, and those
of the bit times that are tried and the sample point to go for. -/
structure NoOverflow (limits : Limits) (clockFreq bitrate nominal : ℕ) : Prop where
  bitTime : (3 * limits.const.tseg2Max + 1) * bitrate < 2 ^ 32
  samplePoint : ∀ brp tseg, Candidate limits clockFreq bitrate brp tseg →
    nominal * (tseg + 1) < 2 ^ 32

theorem Candidate.rateDist_le (h : Candidate limits clockFreq bitrate brp tseg)
    (hpos : 1 ≤ bitrate) : rateDist clockFreq bitrate brp tseg ≤ bitrate := by
  have hproduct : 0 < (tseg + 1) * bitrate := Nat.mul_pos (Nat.succ_pos _) hpos
  have hclock : clockFreq < (clockFreq / ((tseg + 1) * bitrate) + 1) * ((tseg + 1) * bitrate) :=
    Nat.lt_mul_of_div_lt (Nat.lt_succ_self _) hproduct
  have hbrp : clockFreq / ((tseg + 1) * bitrate) + 1 ≤ 2 * brp := by
    have := h.brp_pos
    rcases h.rounded with heq | heq <;> omega
  have hrate : clockFreq / (brp * (tseg + 1)) ≤ 2 * bitrate := by
    apply Nat.div_le_of_le_mul
    calc clockFreq ≤ 2 * brp * ((tseg + 1) * bitrate) :=
          (Nat.le_of_lt hclock).trans (Nat.mul_le_mul_right _ hbrp)
      _ = brp * (tseg + 1) * (2 * bitrate) := by ring
  rw [rateDist, Nat.dist]
  generalize clockFreq / (brp * (tseg + 1)) = rate at hrate ⊢
  omega

namespace NoOverflow

variable (h : NoOverflow limits clockFreq bitrate nominal) (hclock : clockFreq < 2 ^ 32)

include h

theorem mul_lt (htseg : tseg ≤ 3 * limits.const.tseg2Max) : (tseg + 1) * bitrate < 2 ^ 32 :=
  (Nat.mul_le_mul_right bitrate (Nat.succ_le_succ htseg)).trans_lt h.bitTime

theorem bitrate_lt : bitrate < 2 ^ 31 := by
  have hmax := limits.tseg2Max_bounds
  have hproduct : (1 + 1) * bitrate < 2 ^ 32 := h.mul_lt (by omega)
  omega

theorem not_zeroProduct (hpos : 1 ≤ bitrate) : ¬ ZeroProduct limits bitrate := by
  intro hzero
  have hmax := limits.tseg2Max_bounds
  have hle := Nat.le_of_dvd (Nat.mul_pos (by omega) hpos) hzero
  have hproduct : (2 * limits.const.tseg2Max + 1) * bitrate < 2 ^ 32 := h.mul_lt (by omega)
  rw [Nat.add_mul] at hproduct
  omega

include hclock

theorem prescaler_eq (hpos : 1 ≤ bitrate) (hin : InRange limits v) :
    prescaler clockFreq bitrate v = clockFreq / ((v / 2 + 1) * bitrate) + v % 2 := by
  have hproduct := h.mul_lt hin.half_le
  have hlow := hin.1
  have hquotient : clockFreq / ((v / 2 + 1) * bitrate) ≤ clockFreq / 2 :=
    Nat.div_le_div_left ((show 2 ≤ v / 2 + 1 by omega).trans (Nat.le_mul_of_pos_right _ hpos))
      (by decide)
  rw [prescaler, mul_of_lt hproduct, add_of_lt (by omega)]

theorem candidate (hpos : 1 ≤ bitrate) (hin : InRange limits v)
    (hadm : Admissible limits clockFreq bitrate v) :
    Candidate limits clockFreq bitrate (prescaler clockFreq bitrate v) (v / 2) := by
  have heq := h.prescaler_eq hclock hpos hin
  have hlow := hin.1
  refine ⟨by omega, hin.half_le, hadm.1, hadm.2, ?_⟩
  rcases Nat.mod_two_eq_zero_or_one v with hmod | hmod
  · exact .inl (by rw [heq, hmod, Nat.add_zero])
  · exact .inr (by rw [heq, hmod])

/-- An even value of `tseg` rounds the prescaler down, an odd one up. -/
theorem exists_value (hpos : 1 ≤ bitrate) (hcandidate : Candidate limits clockFreq bitrate brp tseg) :
    ∃ v, InRange limits v ∧ Admissible limits clockFreq bitrate v ∧
      prescaler clockFreq bitrate v = brp ∧ v / 2 = tseg := by
  have hlow := hcandidate.two_le
  have hhigh := hcandidate.tseg_le
  obtain ⟨k, hk, hbrp⟩ : ∃ k < 2, brp = clockFreq / ((tseg + 1) * bitrate) + k := by
    rcases hcandidate.rounded with heq | heq
    · exact ⟨0, by decide, heq⟩
    · exact ⟨1, by decide, heq⟩
  have hin : InRange limits (2 * tseg + k) := ⟨by omega, by omega⟩
  have hhalf : (2 * tseg + k) / 2 = tseg := by omega
  have heq : prescaler clockFreq bitrate (2 * tseg + k) = brp := by
    rw [h.prescaler_eq hclock hpos hin, hhalf, hbrp]
    omega
  refine ⟨2 * tseg + k, hin, ?_, heq, hhalf⟩
  rw [Admissible, heq]
  exact ⟨hcandidate.brp_pos, hcandidate.brp_le⟩

theorem rateError_eq (hin : InRange limits v) (hadm : Admissible limits clockFreq bitrate v) :
    rateError clockFreq bitrate v =
      rateDist clockFreq bitrate (prescaler clockFreq bitrate v) (v / 2) := by
  have hlow := hin.1
  have hrate : clockFreq / (prescaler clockFreq bitrate v * (v / 2 + 1)) ≤ clockFreq / 2 :=
    Nat.div_le_div_left ((show 2 ≤ v / 2 + 1 by omega).trans (Nat.le_mul_of_pos_left _ hadm.1))
      (by decide)
  rw [rateError, Word32.abs_sub h.bitrate_lt (by omega), rateDist, Nat.dist]

theorem samplePointFits (hpos : 1 ≤ bitrate) :
    SamplePointFits limits clockFreq bitrate nominal :=
  fun v hin hadm =>
    h.samplePoint (prescaler clockFreq bitrate v) (v / 2) (h.candidate hclock hpos hin hadm)

end NoOverflow

/-! ### The checks -/

theorem canSjwCheck_eq_zero_iff (bt : CanBittiming) (btc : BittimingConst) :
    canSjwCheck bt btc = 0 ↔ bt.sjw ≤ btc.sjwMax ∧ bt.sjw ≤ bt.phaseSeg1 ∧ bt.sjw ≤ bt.phaseSeg2 := by
  have hne : ¬ -einval = 0 := by decide
  rw [canSjwCheck]
  split_ifs <;> simp only [hne, false_iff, true_iff] <;> omega

theorem checkBitTiming_eq_zero_iff (limits : Limits) (timing : BitTiming) :
    checkBitTiming limits.const timing = 0 ↔
      (1 ≤ ofInt (timing.propSeg + timing.phaseSeg1) ∧
        ofInt (timing.propSeg + timing.phaseSeg1) ≤ 2 * limits.const.tseg2Max) ∧
      (1 ≤ ofInt timing.phaseSeg2 ∧ ofInt timing.phaseSeg2 ≤ limits.const.tseg2Max) ∧
      ofInt timing.sjw ≤ limits.const.tseg2Max ∧
      1 ≤ ofInt timing.brp ∧ ofInt timing.brp ≤ limits.const.brpMax := by
  have hne : ¬ -erange = 0 := by decide
  rw [checkBitTiming, Limits.const_tseg1Min, Limits.const_tseg1Max, Limits.const_tseg2Min,
    Limits.const_sjwMax, Limits.const_brpMin]
  split_ifs <;> simp only [hne, false_iff, true_iff] <;> omega

/-- What `ep1_cf02a_calc_bit_timing` stores in `timing`. -/
def bitTimingOf (bt : CanBittiming) : BitTiming :=
  ⟨wrap bt.propSeg, wrap bt.phaseSeg1, wrap bt.phaseSeg2, wrap bt.sjw, wrap bt.brp⟩

theorem calcBitTiming_eq_some_iff (limits : Limits) (canClock bitrate samplePoint : ℤ)
    (timing : BitTiming) :
    calcBitTiming (some canClock) bitrate samplePoint limits.const = some (some timing) ↔
      ∃ bt, canCalcBittiming (ofInt canClock) (request (ofInt bitrate) (ofInt samplePoint))
        limits.const = some (.ok bt) ∧ bitTimingOf bt = timing := by
  rw [calcBitTiming, ← request]
  cases canCalcBittiming (ofInt canClock) (request (ofInt bitrate) (ofInt samplePoint))
    limits.const with
  | none => simp
  | some result => cases result <;> simp [bitTimingOf]

theorem bitTimingOf_calculated (hin : InLimits limits tseg (r.tseg1, r.tseg2))
    (hbrp : brp ≤ limits.const.brpMax) :
    bitTimingOf (calculated clockFreq brp tseg r) =
      ⟨(r.tseg1 / 2 : ℕ), (r.tseg1 - r.tseg1 / 2 : ℕ), r.tseg2,
        (max 1 (min (r.tseg1 - r.tseg1 / 2) (r.tseg2 / 2)) : ℕ), brp⟩ := by
  have hmax := limits.tseg2Max_bounds
  have hmaxBrp := limits.const_brpMax_le
  have htseg1 := hin.tseg1_le
  have htseg2 := hin.tseg2_le
  dsimp only at htseg1 htseg2
  rw [bitTimingOf, calculated]
  dsimp only
  rw [wrap_natCast (by omega), wrap_natCast (by omega), wrap_natCast (by omega),
    wrap_natCast (by omega), wrap_natCast (by omega)]

/-- The check of the jump width leaves no timing without a first segment. -/
theorem checkBitTiming_of_inLimits (hin : InLimits limits tseg (r.tseg1, r.tseg2))
    (hpos : 1 ≤ brp) (hbrp : brp ≤ limits.const.brpMax)
    (hsjw : canSjwCheck (calculated clockFreq brp tseg r) limits.const = 0) :
    checkBitTiming limits.const (bitTimingOf (calculated clockFreq brp tseg r)) = 0 := by
  have hmax := limits.tseg2Max_bounds
  have hmaxBrp := limits.const_brpMax_le
  have htseg1 := hin.tseg1_le
  have htseg2 := hin.tseg2_le
  have htseg2Pos := hin.tseg2_pos
  dsimp only at htseg1 htseg2 htseg2Pos
  rw [canSjwCheck_eq_zero_iff, calculated, Limits.const_sjwMax] at hsjw
  dsimp only at hsjw
  rw [checkBitTiming_eq_zero_iff, bitTimingOf_calculated hin hbrp]
  dsimp only
  rw [← Nat.cast_add, ofInt_natCast (by omega), ofInt_natCast (by omega), ofInt_natCast (by omega),
    ofInt_natCast (by omega)]
  omega

theorem checkBitTiming_of_wrapped (hwrapped : Wrapped limits tseg (r.tseg1, r.tseg2)) :
    checkBitTiming limits.const (bitTimingOf (calculated clockFreq brp tseg r)) ≠ 0 := by
  have hmax := limits.tseg2Max_bounds
  have hshort := hwrapped.tseg_lt
  have htseg2 := hwrapped.tseg2_eq
  dsimp only at htseg2
  rw [Ne, checkBitTiming_eq_zero_iff]
  rintro ⟨-, ⟨-, hle⟩, -⟩
  rw [bitTimingOf, calculated] at hle
  dsimp only at hle
  rw [ofInt_wrap, ofInt_natCast (by omega)] at hle
  omega

theorem canSjwCheck_of_wrapped (hwrapped : Wrapped limits tseg (r.tseg1, r.tseg2)) :
    canSjwCheck (calculated clockFreq brp tseg r) limits.const = 0 := by
  have hmax := limits.tseg2Max_bounds
  have htseg1 := hwrapped.tseg1_eq
  have htseg2 := hwrapped.tseg2_eq
  dsimp only at htseg1 htseg2
  rw [canSjwCheck_eq_zero_iff, calculated, Limits.const_sjwMax]
  dsimp only
  omega

/-! ### The bitrate -/

/-- The rate that a timing stands for. -/
def realisedBitrate (clockFreq : ℕ) (timing : BitTiming) : ℤ :=
  clockFreq / (timing.brp * (1 + timing.propSeg + timing.phaseSeg1 + timing.phaseSeg2))

/-- The timing is accepted under the limits, and its bitrate is within the error that the
calculation allows. -/
structure Meets (limits : Limits) (clockFreq bitrate : ℕ) (timing : BitTiming) : Prop where
  accepted : checkBitTiming limits.const timing = 0
  close : (bitrate - realisedBitrate clockFreq timing).natAbs * 1000 / bitrate ≤ canCalcMaxError

theorem realisedBitrate_calculated (hin : InLimits limits tseg (r.tseg1, r.tseg2))
    (hbrp : brp ≤ limits.const.brpMax) :
    realisedBitrate clockFreq (bitTimingOf (calculated clockFreq brp tseg r)) =
      (clockFreq / (brp * (tseg + 1)) : ℕ) := by
  have hsum := hin.sum
  dsimp only at hsum
  have hbits : (1 : ℤ) + (r.tseg1 / 2 : ℕ) + (r.tseg1 - r.tseg1 / 2 : ℕ) + r.tseg2 =
      (tseg + 1 : ℕ) := by
    omega
  rw [bitTimingOf_calculated hin hbrp, realisedBitrate]
  dsimp only
  rw [hbits, ← Nat.cast_mul, Int.natCast_div]

/-- A bit time with a wrapped split wins: it comes close enough to the bitrate, and at least as close
as all candidates whose bit time has a split that is not beyond the sample point. -/
def WrappedWins (limits : Limits) (clockFreq bitrate nominal : ℕ) : Prop :=
  ∃ brp tseg, Candidate limits clockFreq bitrate brp tseg ∧ Wraps limits nominal tseg ∧
    rateDist clockFreq bitrate brp tseg * 1000 / bitrate ≤ canCalcMaxError ∧
    ∀ brp' tseg', Candidate limits clockFreq bitrate brp' tseg' →
      limits.const.tseg2Max ≤ tseg' ∨ Wraps limits nominal tseg' →
        rateDist clockFreq bitrate brp tseg ≤ rateDist clockFreq bitrate brp' tseg'

section

variable (hfits : NoOverflow limits clockFreq bitrate nominal) (hclock : clockFreq < 2 ^ 32)
  (hpos : 1 ≤ bitrate)

include hfits hclock hpos

theorem Chosen.inLimits (h : Chosen limits clockFreq bitrate nominal v r)
    (hwraps : ¬ Wraps limits nominal (v / 2)) : InLimits limits (v / 2) (r.tseg1, r.tseg2) := by
  have hproduct := hfits.samplePointFits hclock hpos v h.inRange h.admissible
  exact (h.accepts.cases h.inRange.half_le).resolve_right fun hwrapped =>
    hwraps ((h.accepts.wrapped_iff hproduct).mp hwrapped)

/-- The error is at most the bitrate, so its quotient fits into 32 bits. -/
theorem Chosen.rateDist_low (h : Chosen limits clockFreq bitrate nominal v r) :
    rateDist clockFreq bitrate (prescaler clockFreq bitrate v) (v / 2) * 1000 / bitrate ≤
      canCalcMaxError := by
  have hle := (hfits.candidate hclock hpos h.inRange h.admissible).rateDist_le hpos
  have hquotient : rateDist clockFreq bitrate (prescaler clockFreq bitrate v) (v / 2) * 1000 /
      bitrate ≤ 1000 :=
    Nat.div_le_of_le_mul (Nat.mul_le_mul_right 1000 hle)
  have hlow := h.low
  rwa [hfits.rateError_eq hclock h.inRange h.admissible, Nat.mod_eq_of_lt (by omega)] at hlow

theorem Chosen.meets (h : Chosen limits clockFreq bitrate nominal v r)
    (hwraps : ¬ Wraps limits nominal (v / 2)) :
    Meets limits clockFreq bitrate
      (bitTimingOf (calculated clockFreq (prescaler clockFreq bitrate v) (v / 2) r)) := by
  have hin := h.inLimits hfits hclock hpos hwraps
  refine ⟨checkBitTiming_of_inLimits hin h.admissible.1 h.admissible.2 h.sjw, ?_⟩
  rw [realisedBitrate_calculated hin h.admissible.2]
  have hdist : ((bitrate : ℤ) - (clockFreq / (prescaler clockFreq bitrate v * (v / 2 + 1)) : ℕ)).natAbs
      = rateDist clockFreq bitrate (prescaler clockFreq bitrate v) (v / 2) := by
    rw [rateDist, Nat.dist]
    omega
  rw [hdist]
  exact h.rateDist_low hfits hclock hpos

theorem Chosen.wrappedWins (h : Chosen limits clockFreq bitrate nominal v r)
    (hwraps : Wraps limits nominal (v / 2)) : WrappedWins limits clockFreq bitrate nominal := by
  have hcandidate := hfits.candidate hclock hpos h.inRange h.admissible
  have herror := hfits.rateError_eq hclock h.inRange h.admissible
  refine ⟨_, _, hcandidate, hwraps, h.rateDist_low hfits hclock hpos,
    fun brp' tseg' hcandidate' hsplit => ?_⟩
  obtain ⟨w, hin, hadm, rfl, rfl⟩ := hfits.exists_value hclock hpos hcandidate'
  have hproduct := hfits.samplePointFits hclock hpos w hin hadm
  have hsuits := (suits_iff hin.half_le hproduct hwraps.two_thousand_le).mpr hsplit
  rw [← herror, ← hfits.rateError_eq hclock hin hadm]
  exact h.least w hin hadm hsuits

end

section

variable {samplePoint : ℕ} (hfits : NoOverflow limits clockFreq bitrate
  (samplePointNominal (request bitrate samplePoint))) (hclock : clockFreq < 2 ^ 32)
  (hpos : 1 ≤ bitrate)

include hfits hclock hpos

/-- A timing with a wrapped split is then the one that is calculated. -/
theorem WrappedWins.canCalcBittiming (h : WrappedWins limits clockFreq bitrate
    (samplePointNominal (request bitrate samplePoint))) :
    ∃ v r, Wrapped limits (v / 2) (r.tseg1, r.tseg2) ∧
      canCalcBittiming clockFreq (request bitrate samplePoint) limits.const =
        some (.ok (calculated clockFreq (prescaler clockFreq bitrate v) (v / 2) r)) := by
  obtain ⟨brp, tseg, hcandidate, hwraps, hlow, hleast⟩ := h
  obtain ⟨w, hinw, hadmw, rfl, rfl⟩ := hfits.exists_value hclock hpos hcandidate
  have hlarge := hwraps.two_thousand_le
  have hzero := hfits.not_zeroProduct hpos
  have hsplits := hfits.samplePointFits hclock hpos
  have hbitrate : bitrate < 2 ^ 32 := hfits.bitrate_lt.trans (by decide)
  obtain ⟨s, hsearch⟩ := exists_search hclock hbitrate hzero
    (samplePointNominal (request bitrate samplePoint))
  obtain ⟨hfound, hprefers⟩ := search_found (fun v hin => product_ne_zero hzero hin) hsearch
  have hsuits : Suits limits _ (w / 2) :=
    (suits_iff hinw.half_le (hsplits w hinw hadmw) hlarge).mpr (.inr hwraps)
  cases hfound with
  | nothing _ hnone => exact absurd hsuits (hnone w hinw.1 hinw hadmw)
  | best v r _ hin hadm hr herror htseg hbrp hmin =>
      have heq : rateError clockFreq bitrate w = s.bestBitrateError := by
        rw [herror]
        refine Nat.le_antisymm ?_ (hmin w hinw.1 hinw hadmw hsuits)
        rw [hfits.rateError_eq hclock hinw hadmw, hfits.rateError_eq hclock hin hadm]
        refine hleast _ _ (hfits.candidate hclock hpos hin hadm) ?_
        exact (suits_iff hin.half_le (hsplits v hin hadm) hlarge).mp hr.suits
      have hbest := (hprefers hsplits).wraps w hinw.1 hinw hadmw hwraps heq
      rw [htseg] at hbest
      have hwrapped := (hr.wrapped_iff (hsplits v hin hadm)).mpr hbest
      have hclockPos : 0 < clockFreq := by
        refine Nat.pos_of_ne_zero fun hclockZero => ?_
        rw [rateDist, hclockZero, Nat.zero_div, Nat.dist, Nat.sub_zero, Nat.zero_sub, Nat.add_zero,
          Nat.mul_comm, Nat.mul_div_cancel _ hpos] at hlow
        exact absurd hlow (by decide)
      have hhigh : ¬ canCalcMaxError < s.bestBitrateError * 1000 / bitrate % 2 ^ 32 := by
        rw [← heq, hfits.rateError_eq hclock hinw hadmw]
        exact Nat.not_lt.mpr ((Nat.mod_le _ _).trans hlow)
      have hsjw := @canSjwCheck_of_wrapped limits clockFreq (prescaler clockFreq bitrate v) (v / 2) r
        hwrapped
      rw [← htseg] at hr
      refine ⟨v, r, hwrapped, ?_⟩
      rw [canCalcBittiming_of_best hsearch hpos hhigh hr hclockPos (htseg ▸ hin.half_le)
        (hbrp ▸ hadm.1) (hbrp ▸ hadm.2), htseg, hbrp, if_neg (not_not.mpr hsjw)]

end

/-- Calculated timings are accepted and close to the bitrate unless a wrapped split wins. -/
theorem calcBitTiming_meets_iff (limits : Limits) (canClock samplePoint : ℤ) (hpos : 1 ≤ bitrate)
    (hfits : NoOverflow limits (ofInt canClock) bitrate
      (samplePointNominal (request bitrate (ofInt samplePoint)))) :
    (∀ timing, calcBitTiming (some canClock) bitrate samplePoint limits.const = some (some timing) →
        Meets limits (ofInt canClock) bitrate timing) ↔
      ¬ WrappedWins limits (ofInt canClock) bitrate
        (samplePointNominal (request bitrate (ofInt samplePoint))) := by
  have hclock := ofInt_lt canClock
  have hbitrate : bitrate < 2 ^ 32 := hfits.bitrate_lt.trans (by decide)
  have hcast : ofInt bitrate = bitrate := ofInt_natCast hbitrate
  constructor
  · intro hmeets hwins
    obtain ⟨v, r, hwrapped, hcalc⟩ := hwins.canCalcBittiming hfits hclock hpos
    have htiming := (calcBitTiming_eq_some_iff limits canClock bitrate samplePoint _).mpr
      ⟨_, by rw [hcast]; exact hcalc, rfl⟩
    exact checkBitTiming_of_wrapped hwrapped (hmeets _ htiming).accepted
  · intro hwins timing htiming
    obtain ⟨bt, hcalc, rfl⟩ := (calcBitTiming_eq_some_iff _ _ _ _ _).mp htiming
    rw [hcast] at hcalc
    obtain ⟨v, r, hchosen, rfl⟩ := canCalcBittiming_eq_ok hclock hbitrate
      (hfits.not_zeroProduct hpos) hcalc
    exact hchosen.meets hfits hclock hpos fun hwraps =>
      hwins (hchosen.wrappedWins hfits hclock hpos hwraps)

theorem noOverflow_of_small (limits : Limits) (clockFreq : ℕ) (hbitrate : bitrate ≤ 8000000)
    (hnominal : nominal ≤ 10000000) : NoOverflow limits clockFreq bitrate nominal := by
  have hmax := limits.tseg2Max_bounds
  have hbits : 3 * limits.const.tseg2Max + 1 ≤ 385 := by omega
  refine ⟨(Nat.mul_le_mul hbits hbitrate).trans_lt (by decide), fun brp tseg h => ?_⟩
  have htseg := h.tseg_le
  exact (Nat.mul_le_mul hnominal (show tseg + 1 ≤ 385 by omega)).trans_lt (by decide)

theorem calcBitTiming_meets_500k :
    Meets .nominal (ofInt 80000000) 500000 ⟨63, 64, 32, 16, 1⟩ := by
  refine (calcBitTiming_meets_iff .nominal 80000000 800 (by decide)
    (noOverflow_of_small .nominal _ (by decide) (by decide))).mpr ?_ _ (by decide +kernel)
  rintro ⟨brp, tseg, -, hwraps, -⟩
  exact absurd hwraps.two_thousand_le (by decide)

/-- A sample point in hundredths of a percent. -/
theorem calcBitTiming_rejected :
    NoOverflow .nominal 80000000 500000 8000 ∧
      ∃ timing, calcBitTiming (some 80000000) 500000 8000 Limits.nominal.const =
          some (some timing) ∧ checkBitTiming Limits.nominal.const timing = -erange :=
  ⟨noOverflow_of_small .nominal _ (by decide) (by decide), ⟨128, 128, -217, 128, 4⟩,
    by decide +kernel⟩

end AptUsbtrx.Ep1Cf02a
