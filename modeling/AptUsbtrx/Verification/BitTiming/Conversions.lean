import AptUsbtrx.Verification.BitTiming.Limits
import AptUsbtrx.Verification.Msg.Words

/-! # Conversions of bit timings

How the drivers convert the bit timing of a device to bitrate, sample point and time quantum, and how
the conversion undoes the calculation. -/

namespace AptUsbtrx

open Word32

/-- The bit time of the segments, in quanta. -/
def quanta (propSeg phaseSeg1 phaseSeg2 : ℕ) : ℕ := 1 + propSeg + phaseSeg1 + phaseSeg2

/-- The sample point of the segments, in tenths of a percent. -/
def samplePointOf (propSeg phaseSeg1 phaseSeg2 : ℕ) : ℕ :=
  1000 * (1 + propSeg + phaseSeg1) / quanta propSeg phaseSeg1 phaseSeg2

section

variable {propSeg phaseSeg1 phaseSeg2 sjw brp : ℕ}

theorem samplePointOf_le : samplePointOf propSeg phaseSeg1 phaseSeg2 ≤ 1000 := by
  apply Nat.div_le_of_le_mul
  rw [Nat.mul_comm (quanta _ _ _)]
  exact Nat.mul_le_mul_left 1000 (by rw [quanta]; omega)

theorem natCast_quanta :
    ((quanta propSeg phaseSeg1 phaseSeg2 : ℕ) : ℤ) = 1 + propSeg + phaseSeg1 + phaseSeg2 := by
  rw [quanta]
  push_cast
  rfl

variable (hprop : propSeg < 2 ^ 16) (hphase1 : phaseSeg1 < 2 ^ 16) (hphase2 : phaseSeg2 < 2 ^ 16)

include hprop hphase1

theorem sdiv_samplePoint :
    sdiv (wrap (1000 * (1 + propSeg + phaseSeg1))) (quanta propSeg phaseSeg1 phaseSeg2) =
      some (samplePointOf propSeg phaseSeg1 phaseSeg2 : ℤ) := by
  have hcast : (1000 : ℤ) * (1 + propSeg + phaseSeg1) = (1000 * (1 + propSeg + phaseSeg1) : ℕ) := by
    push_cast
    rfl
  rw [hcast, wrap_natCast (by omega), sdiv_natCast (by rw [quanta]; omega), samplePointOf]

theorem Ep1Ch02a.setCurrentBittiming_eq {major minor : ℕ}
    (hsupport : isSupportBittimingCommand major minor = true) (canClock : ℤ) (can : CanBittiming) :
    setCurrentBittiming major minor
        (some ⟨canClock, propSeg, phaseSeg1, phaseSeg2, sjw, brp⟩) can =
      (sdiv canClock (1000 * 1000)).bind fun megahertz => (sdiv 1000 megahertz).bind fun quantum =>
        some (ofInt canClock, ⟨defaultBaudrate, samplePointOf propSeg phaseSeg1 phaseSeg2,
          ofInt (quantum * brp), propSeg, phaseSeg1, phaseSeg2, sjw, brp⟩) := by
  have hsample := @sdiv_samplePoint _ _ phaseSeg2 hprop hphase1
  have hle := @samplePointOf_le propSeg phaseSeg1 phaseSeg2
  have hproduct : ((quanta propSeg phaseSeg1 phaseSeg2 : ℤ) - phaseSeg2) * 1000 =
      1000 * (1 + propSeg + phaseSeg1) := by
    rw [natCast_quanta]
    ring
  simp only [setCurrentBittiming, hsupport, if_true, ← natCast_quanta, hproduct, hsample, ofInt_wrap,
    ofInt_natCast (a := samplePointOf propSeg phaseSeg1 phaseSeg2) (by omega),
    Option.bind_eq_bind, Option.bind_some]

include hphase2

theorem wrap_quanta :
    wrap (1 + propSeg + phaseSeg1 + phaseSeg2) = quanta propSeg phaseSeg1 phaseSeg2 := by
  rw [← natCast_quanta, wrap_natCast (by rw [quanta]; omega)]

theorem Ep1Cf02a.calcBitrate_eq (canClock : ℤ) :
    calcBitrate (some canClock) ⟨propSeg, phaseSeg1, phaseSeg2, sjw, brp⟩ =
      (sdiv canClock (wrap (brp * quanta propSeg phaseSeg1 phaseSeg2))).bind fun bitrate =>
        some (some (bitrate, (samplePointOf propSeg phaseSeg1 phaseSeg2 : ℤ))) := by
  have hsample := @sdiv_samplePoint _ _ phaseSeg2 hprop hphase1
  have hsync : (canSyncSeg : ℤ) = 1 := rfl
  simp only [calcBitrate, wrap_quanta hprop hphase1 hphase2, hsync, hsample, Option.bind_eq_bind,
    Option.bind_some]

theorem Ep1Cf02a.bitTimingToCanBittiming_eq (hbrp : brp < 2 ^ 16) (uniqueData : UniqueData) :
    bitTimingToCanBittiming uniqueData ⟨propSeg, phaseSeg1, phaseSeg2, sjw, brp⟩ =
      (udiv uniqueData.canClock (brp * quanta propSeg phaseSeg1 phaseSeg2 % 2 ^ 32)).bind
        fun bitrate => (udiv (brp * 1000000000) uniqueData.canClock).bind fun tq =>
          some ⟨bitrate, samplePointOf propSeg phaseSeg1 phaseSeg2, tq % 2 ^ 32, propSeg, phaseSeg1,
            phaseSeg2, ofInt sjw, brp⟩ := by
  have hsample := @sdiv_samplePoint _ _ phaseSeg2 hprop hphase1
  have hle := @samplePointOf_le propSeg phaseSeg1 phaseSeg2
  have hsync : (canSyncSeg : ℤ) = 1 := rfl
  have hproduct : ofInt (brp * quanta propSeg phaseSeg1 phaseSeg2) =
      brp * quanta propSeg phaseSeg1 phaseSeg2 % 2 ^ 32 := by
    rw [← Nat.cast_mul, ofInt]
    omega
  have hnano : ((brp : ℤ) % 2 ^ 64).toNat * 1000000000 % 2 ^ 64 = brp * 1000000000 := by
    omega
  have hsmall : ∀ x : ℕ, x < 2 ^ 16 → ofInt x = x ∧ wrap x = x :=
    fun x hx => ⟨ofInt_natCast (by omega), wrap_natCast (by omega)⟩
  rw [bitTimingToCanBittiming]
  dsimp only
  rw [(hsmall _ hprop).1, (hsmall _ hphase1).1, (hsmall _ hphase2).1, (hsmall _ hbrp).1,
    (hsmall _ hprop).2, (hsmall _ hphase1).2, (hsmall _ hphase2).2, (hsmall _ hbrp).2, hsync,
    wrap_quanta hprop hphase1 hphase2, hsample, hproduct, hnano]
  simp only [Option.bind_eq_bind, Option.bind_some, ofInt_natCast (a := samplePointOf _ _ _)
    (hle.trans_lt (by decide))]

end

/-! ### The calculation undone -/

namespace Ep1Cf02a

variable {limits : Limits} {clockFreq samplePoint brp tseg : ℕ} {r : SplitResult}

theorem samplePointNominal_le (h : samplePoint ≤ 1000) (bitrate : ℕ) :
    samplePointNominal (request bitrate samplePoint) ≤ 1000 := by
  rw [samplePointNominal, request]
  split_ifs
  · exact h
  all_goals decide

theorem calcBitrate_calculated (hin : InLimits limits tseg (r.tseg1, r.tseg2))
    (hpos : 1 ≤ brp) (hbrp : brp ≤ limits.const.brpMax) :
    calcBitrate (some clockFreq) (bitTimingOf (calculated clockFreq brp tseg r)) =
      some (some (((clockFreq / (brp * (tseg + 1)) : ℕ) : ℤ),
        (splitSamplePoint tseg (r.tseg1, r.tseg2) : ℤ))) := by
  have hmax := limits.tseg2Max_bounds
  have hmaxBrp := limits.const_brpMax_le
  have hsum := hin.sum
  have htseg1 := hin.tseg1_le
  have htseg2 := hin.tseg2_le
  dsimp only at hsum htseg1 htseg2
  have hquanta : quanta (r.tseg1 / 2) (r.tseg1 - r.tseg1 / 2) r.tseg2 = tseg + 1 := by
    rw [quanta]
    omega
  have hsample : samplePointOf (r.tseg1 / 2) (r.tseg1 - r.tseg1 / 2) r.tseg2 =
      splitSamplePoint tseg (r.tseg1, r.tseg2) := by
    rw [samplePointOf, hquanta, splitSamplePoint]
    congr 2
    omega
  have hproduct : brp * (tseg + 1) ≤ 512 * 385 := Nat.mul_le_mul (by omega) (by omega)
  rw [bitTimingOf_calculated hin hbrp, calcBitrate_eq (by omega) (by omega) (by omega), hquanta,
    hsample, ← Nat.cast_mul, wrap_natCast (by omega),
    sdiv_natCast (Nat.mul_pos hpos (Nat.succ_pos tseg)), Option.bind_some]

/-- The conversion gives back what the calculation has recorded. -/
theorem calcBitrate_calcBitTiming (limits : Limits) {canClock bitrate samplePoint : ℤ}
    {bt : CanBittiming} (hclock : 0 ≤ canClock) (hclockMax : canClock < 2 ^ 31)
    (hsample : 0 ≤ samplePoint) (hsampleMax : samplePoint ≤ 1000)
    (h : canCalcBittiming (ofInt canClock) (request (ofInt bitrate) (ofInt samplePoint))
      limits.const = some (.ok bt)) :
    calcBitTiming (some canClock) bitrate samplePoint limits.const = some (some (bitTimingOf bt)) ∧
      calcBitrate (some canClock) (bitTimingOf bt) =
        some (some ((bt.bitrate : ℤ), (bt.samplePoint : ℤ))) := by
  refine ⟨(calcBitTiming_eq_some_iff _ _ _ _ _).mpr ⟨bt, h, rfl⟩, ?_⟩
  lift canClock to ℕ using hclock
  rw [ofInt_natCast (by omega)] at h
  have hclock : canClock < 2 ^ 32 := by omega
  have hzero : ¬ ZeroProduct limits (ofInt bitrate) := by
    intro hzero
    rw [(canCalcBittiming_eq_none_iff hclock (ofInt_lt _)).mpr (.inl hzero)] at h
    cases h
  obtain ⟨v, r, hchosen, rfl⟩ := canCalcBittiming_eq_ok hclock (ofInt_lt _) hzero h
  have hin : InLimits limits (v / 2) (r.tseg1, r.tseg2) := by
    refine (hchosen.accepts.cases hchosen.inRange.half_le).resolve_right fun hwrapped => ?_
    have hle := hchosen.accepts.le_nominal
    have hnominal := samplePointNominal_le (show ofInt samplePoint ≤ 1000 by rw [ofInt]; omega)
      (ofInt bitrate)
    have hlarge := hwrapped.two_thousand_le
    rw [← hchosen.accepts.samplePoint_eq] at hlarge
    omega
  rw [calcBitrate_calculated hin hchosen.admissible.1 hchosen.admissible.2]
  rw [calculated, hchosen.accepts.samplePoint_eq]

theorem calcBitrate_calcBitTiming_500k :
    ∃ bt, calcBitTiming (some 80000000) 500000 800 Limits.nominal.const =
        some (some (bitTimingOf bt)) ∧
      calcBitrate (some 80000000) (bitTimingOf bt) =
        some (some ((bt.bitrate : ℤ), (bt.samplePoint : ℤ))) :=
  ⟨⟨500000, 800, 12, 63, 64, 32, 16, 1⟩, calcBitrate_calcBitTiming .nominal (by decide) (by decide)
    (by decide) (by decide) (by decide +kernel)⟩

end Ep1Cf02a

/-! ### Divisions by zero -/

/-- The product of the reported prescaler and bit time is not zero in its low 32 bits. -/
def Ep1Cf02a.NonzeroProduct (data : List UInt8) : Prop :=
  le16 data 8 * quanta (le16 data 0) (le16 data 2) (le16 data 4) % 2 ^ 32 ≠ 0

theorem Ep1Cf02a.calcBitrate_ne_none_iff (canClock : ℤ) (data : List UInt8) :
    calcBitrate (some canClock) (parseResponseGetBitTiming data) ≠ none ↔ NonzeroProduct data := by
  rw [parseResponseGetBitTiming, calcBitrate_eq (le16_lt _ _) (le16_lt _ _) (le16_lt _ _),
    NonzeroProduct, not_iff_not, Option.bind_eq_none_iff, ← Nat.cast_mul]
  generalize le16 data 8 * quanta (le16 data 0) (le16 data 2) (le16 data 4) = product
  have hzero := @wrap_eq_zero_iff product
  rw [sdiv]
  split
  next hwrap => exact iff_of_true (by simp) (by omega)
  next hwrap => exact iff_of_false (by simp) (by omega)

theorem Ep1Cf02a.bitTimingToCanBittiming_ne_none_iff (uniqueData : UniqueData)
    (data : List UInt8) :
    bitTimingToCanBittiming uniqueData (parseResponseGetBitTiming data) ≠ none ↔
      NonzeroProduct data ∧ uniqueData.canClock ≠ 0 := by
  rw [parseResponseGetBitTiming, NonzeroProduct,
    bitTimingToCanBittiming_eq (le16_lt _ _) (le16_lt _ _) (le16_lt _ _) (le16_lt _ _)]
  generalize le16 data 8 * quanta (le16 data 0) (le16 data 2) (le16 data 4) % 2 ^ 32 = product
  rcases Nat.eq_zero_or_pos product with rfl | hproduct
  · simp [udiv]
  rcases Nat.eq_zero_or_pos uniqueData.canClock with hclock | hclock
  · simp [udiv, hclock]
  · rw [udiv_of_pos hproduct, udiv_of_pos hclock]
    exact iff_of_true (by simp) ⟨Nat.ne_of_gt hproduct, Nat.ne_of_gt hclock⟩

theorem Ep1Ch02a.exists_megahertz (canClock : ℤ) :
    ∃ megahertz, sdiv canClock (1000 * 1000) = some megahertz ∧
      megahertz.natAbs = canClock.natAbs / 1000000 := by
  refine ⟨canClock.tdiv (1000 * 1000), if_neg (by decide), ?_⟩
  rw [Int.natAbs_tdiv]
  rfl

theorem Ep1Ch02a.setCurrentBittiming_ne_none_iff (major minor : ℕ) (data : List UInt8)
    (can : CanBittiming) :
    setCurrentBittiming major minor (some (parseResponseGetBitTiming data)) can ≠ none ↔
      (isSupportBittimingCommand major minor = true →
        1000000 ≤ (Ep1Cf02a.le32Signed data 0).natAbs) := by
  have hbyte : ∀ n, (byteAt data n).toNat < 2 ^ 16 := fun n =>
    (byteAt data n).toNat_lt.trans (by decide)
  by_cases hsupport : isSupportBittimingCommand major minor = true
  · obtain ⟨megahertz, hdiv, habs⟩ := exists_megahertz (Ep1Cf02a.le32Signed data 0)
    rw [parseResponseGetBitTiming, setCurrentBittiming_eq (hbyte _) (hbyte _) hsupport, hdiv,
      Option.bind_some, sdiv]
    split
    next hzero =>
      rw [hzero] at habs
      refine iff_of_false (by simp) fun h => ?_
      have hlarge := h hsupport
      omega
    next hne => exact iff_of_true (by simp) fun _ => by omega
  · refine iff_of_true ?_ fun h => absurd h hsupport
    rw [setCurrentBittiming, if_neg hsupport]
    exact Option.some_ne_none _

/-- The conversions of the bit timings that the devices report are defined for these reports. -/
theorem conversions_ne_none_iff (data clockData chData : List UInt8)
    (uniqueData : Ep1Cf02a.UniqueData) (major minor : ℕ) (can : CanBittiming) :
    (Ep1Cf02a.calcBitrate (some (Ep1Cf02a.parseResponseGetCanClock clockData))
          (Ep1Cf02a.parseResponseGetBitTiming data) ≠ none ↔ Ep1Cf02a.NonzeroProduct data) ∧
      (Ep1Cf02a.bitTimingToCanBittiming
          { uniqueData with canClock := ofInt (Ep1Cf02a.parseResponseGetCanClock clockData) }
          (Ep1Cf02a.parseResponseGetBitTiming data) ≠ none ↔
        Ep1Cf02a.NonzeroProduct data ∧ Ep1Cf02a.le32 clockData 0 ≠ 0) ∧
      (Ep1Ch02a.setCurrentBittiming major minor
          (some (Ep1Ch02a.parseResponseGetBitTiming chData)) can ≠ none ↔
        (Ep1Ch02a.isSupportBittimingCommand major minor = true →
          1000000 ≤ (Ep1Cf02a.le32Signed chData 0).natAbs)) := by
  refine ⟨Ep1Cf02a.calcBitrate_ne_none_iff _ _, ?_,
    Ep1Ch02a.setCurrentBittiming_ne_none_iff _ _ _ _⟩
  have hclock : ofInt (Ep1Cf02a.parseResponseGetCanClock clockData) = Ep1Cf02a.le32 clockData 0 :=
    (ofInt_wrap _).trans (ofInt_natCast (Ep1Cf02a.le32_lt clockData 0))
  rw [Ep1Cf02a.bitTimingToCanBittiming_ne_none_iff, hclock]

theorem conversions_zero_brp :
    Ep1Cf02a.calcBitrate (some 80000000)
      (Ep1Cf02a.parseResponseGetBitTiming [12, 0, 51, 0, 16, 0, 8, 0, 0, 0]) = none := by
  decide

/-! ### The time quantum -/

/-- A period of `q` nanoseconds for a clock of `clock` Hz makes the same time quantum as the exact
period. -/
theorem mul_eq_div_iff {q brp clock : ℕ} (hpos : 0 < clock) (hbrp : 1 ≤ brp) :
    q * brp = brp * 1000000000 / clock ↔
      q * clock ≤ 1000000000 ∧ brp * (1000000000 - q * clock) < clock := by
  have hproduct : q * brp * clock = brp * (q * clock) := by ring
  have hle : brp * (q * clock) ≤ brp * 1000000000 ↔ q * clock ≤ 1000000000 :=
    Nat.mul_le_mul_left_iff hbrp
  rw [eq_comm, Nat.div_eq_iff hpos, hproduct, hle, Nat.mul_sub]
  omega

/-- The period in nanoseconds that `ep1_ch02a_set_current_bittiming` counts with, without its
sign. -/
def wholePeriod (clock : ℕ) : ℕ := 1000 / (Word32.abs clock / 1000000)

theorem Ep1Ch02a.sdiv_megahertz {clock : ℕ} (hclock : clock < 2 ^ 32)
    (hlarge : 1000000 ≤ Word32.abs clock) :
    ((sdiv (wrap clock) (1000 * 1000)).bind fun megahertz => sdiv 1000 megahertz) =
      some (if clock < 2 ^ 31 then (wholePeriod clock : ℤ) else -wholePeriod clock) := by
  have hmillion : (1000 * 1000 : ℤ) = (1000000 : ℕ) := by decide
  have hthousand : (1000 : ℤ) = (1000 : ℕ) := rfl
  have hpos : 0 < Word32.abs clock / 1000000 := Nat.div_pos hlarge (by decide)
  rw [hmillion, hthousand, wholePeriod]
  split
  next hpositive =>
    have habs : Word32.abs clock = clock := if_pos hpositive
    rw [habs] at hpos ⊢
    rw [wrap_natCast hpositive, sdiv_natCast (by decide), Option.bind_some, sdiv_natCast hpos]
  next hnegative =>
    rw [wrap_of_le (by omega) hclock, sdiv_neg_natCast (by decide), Option.bind_some,
      sdiv_natCast_neg hpos]

/-- What `ep1_ch02a_set_current_bittiming` makes of a period and a prescaler is exact when the period
is, and when what is lost of it is less than a nanosecond in a time quantum. -/
theorem ofInt_wholePeriod_eq_iff {clock brp : ℕ} (hclock : 1000000 ≤ clock)
    (hclockMax : clock < 2 ^ 32) (hbrp : 1 ≤ brp) (hbrpMax : brp < 2 ^ 16) :
    ofInt ((if clock < 2 ^ 31 then (wholePeriod clock : ℤ) else -wholePeriod clock) * brp) =
        brp * 1000000000 / clock ↔
      wholePeriod clock * clock ≤ 1000000000 ∧
        brp * (1000000000 - wholePeriod clock * clock) < clock := by
  have hperiod : wholePeriod clock ≤ 1000 := Nat.div_le_self _ _
  have hquantum : wholePeriod clock * brp ≤ 1000 * 65535 := Nat.mul_le_mul hperiod (by omega)
  have hexact : brp * 1000000000 / clock ≤ 65535000 := by
    apply Nat.div_le_of_le_mul
    omega
  split
  next hpositive =>
    rw [← Nat.cast_mul, ofInt_natCast (by omega), mul_eq_div_iff (by omega) hbrp]
  next hnegative =>
    -- the period is negative or 0
    rw [neg_mul, ← Nat.cast_mul]
    rcases Nat.eq_zero_or_pos (wholePeriod clock) with hzero | hpos
    · rw [← mul_eq_div_iff (by omega) hbrp, hzero, Nat.zero_mul]
      rfl
    · rw [ofInt_neg_natCast (Nat.mul_pos hpos hbrp) (by omega)]
      refine iff_of_false (Nat.ne_of_gt (by omega)) fun h => ?_
      have hperiod := Nat.le_mul_of_pos_left clock hpos
      omega

section

variable {propSeg phaseSeg1 phaseSeg2 sjw brp clock major minor : ℕ} (uniqueData : Ep1Cf02a.UniqueData)
  (can : CanBittiming)

/-- Both conversions of a bit timing are defined, both find the time quantum that the clock and the
prescaler make, and they find the same sample point. -/
def Agree (propSeg phaseSeg1 phaseSeg2 sjw brp clock major minor : ℕ)
    (uniqueData : Ep1Cf02a.UniqueData) (can : CanBittiming) : Prop :=
  ∃ cf ch freq,
    Ep1Cf02a.bitTimingToCanBittiming { uniqueData with canClock := clock }
      ⟨propSeg, phaseSeg1, phaseSeg2, sjw, brp⟩ = some cf ∧
    Ep1Ch02a.setCurrentBittiming major minor
      (some ⟨wrap clock, propSeg, phaseSeg1, phaseSeg2, sjw, brp⟩) can = some (freq, ch) ∧
    cf.tq = brp * 1000000000 / clock ∧ ch.tq = brp * 1000000000 / clock ∧
    cf.samplePoint = ch.samplePoint

theorem agree_iff (hprop : propSeg < 2 ^ 16) (hphase1 : phaseSeg1 < 2 ^ 16)
    (hphase2 : phaseSeg2 < 2 ^ 16) (hbrp : 1 ≤ brp) (hbrpMax : brp < 2 ^ 16)
    (hclock : 1000000 ≤ clock) (hclockMax : clock < 2 ^ 32)
    (hsupport : Ep1Ch02a.isSupportBittimingCommand major minor = true) :
    Agree propSeg phaseSeg1 phaseSeg2 sjw brp clock major minor uniqueData can ↔
      brp * quanta propSeg phaseSeg1 phaseSeg2 % 2 ^ 32 ≠ 0 ∧ 1000000 ≤ Word32.abs clock ∧
        wholePeriod clock * clock ≤ 1000000000 ∧
          brp * (1000000000 - wholePeriod clock * clock) < clock := by
  have hexact : brp * 1000000000 / clock ≤ 65535000 := by
    apply Nat.div_le_of_le_mul
    omega
  have hcf := @Ep1Cf02a.bitTimingToCanBittiming_eq _ _ _ sjw _ hprop hphase1 hphase2 hbrpMax
    { uniqueData with canClock := clock }
  have hch := @Ep1Ch02a.setCurrentBittiming_eq _ _ phaseSeg2 sjw brp hprop hphase1 _ _ hsupport
    (wrap clock) can
  rw [← ofInt_wholePeriod_eq_iff hclock hclockMax hbrp hbrpMax]
  dsimp only at hcf
  rw [udiv_of_pos (b := clock) (by omega)] at hcf
  by_cases hproduct : brp * quanta propSeg phaseSeg1 phaseSeg2 % 2 ^ 32 = 0
  · refine iff_of_false ?_ fun h => h.1 hproduct
    rintro ⟨cf, ch, freq, hcf', -⟩
    rw [hcf, udiv_eq_none_iff.mpr hproduct] at hcf'
    cases hcf'
  by_cases hlarge : 1000000 ≤ Word32.abs clock
  · rw [← Option.bind_assoc, Ep1Ch02a.sdiv_megahertz hclockMax hlarge, Option.bind_some] at hch
    rw [udiv_of_pos (Nat.pos_of_ne_zero hproduct), Option.bind_some, Option.bind_some] at hcf
    simp only [Agree, hcf, hch]
    constructor
    · rintro ⟨cf, ch, freq, hcf', hch', -, htq, -⟩
      rw [Option.some.injEq, Prod.mk.injEq] at hch'
      rw [← hch'.2] at htq
      exact ⟨hproduct, hlarge, htq⟩
    · rintro ⟨-, -, htq⟩
      exact ⟨_, _, _, rfl, rfl, Nat.mod_eq_of_lt (hexact.trans_lt (by decide)), htq, rfl⟩
  · refine iff_of_false ?_ fun h => hlarge h.2.1
    rintro ⟨cf, ch, freq, -, hch', -⟩
    obtain ⟨megahertz, hdiv, habs⟩ := Ep1Ch02a.exists_megahertz (wrap clock)
    rw [natAbs_wrap hclockMax, Nat.div_eq_of_lt (Nat.not_le.mp hlarge), Int.natAbs_eq_zero] at habs
    rw [hch, hdiv, Option.bind_some, sdiv_eq_none_iff.mpr habs] at hch'
    cases hch'

end

/-- A whole number of MHz that divides 1000. -/
theorem agree_ten_megahertz :
    Agree 8 3 2 4 4 10000000 2 3 (Ep1Cf02a.initData 0) ⟨0, 0, 0, 0, 0, 0, 0, 0⟩ :=
  (agree_iff (Ep1Cf02a.initData 0) ⟨0, 0, 0, 0, 0, 0, 0, 0⟩ (by decide) (by decide) (by decide)
    (by decide) (by decide) (by decide) (by decide) rfl).mpr (by decide)

/-- The clock of 7.5 MHz and the bit timing of the tests. -/
theorem not_agree_test :
    ¬ Agree 8 3 2 4 4 7500000 2 3 (Ep1Cf02a.initData 0) ⟨0, 0, 0, 0, 0, 0, 0, 0⟩ := by
  rintro ⟨cf, ch, freq, -, hch, -, htq, -⟩
  have hresult : Ep1Ch02a.setCurrentBittiming 2 3 (some ⟨wrap (7500000 : ℕ), 8, 3, 2, 4, 4⟩)
      ⟨0, 0, 0, 0, 0, 0, 0, 0⟩ = some (7500000, ⟨500000, 857, 568, 8, 3, 2, 4, 4⟩) := by
    decide
  rw [hresult, Option.some.injEq, Prod.mk.injEq] at hch
  rw [← hch.2] at htq
  exact absurd htq (by decide)

end AptUsbtrx
