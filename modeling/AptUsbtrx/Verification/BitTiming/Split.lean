import AptUsbtrx.Model.BitTiming

/-! # The split of a bit time

What `ep1_cf02a_can_update_sample_point` makes of a bit time: two segments inside of the limits or,
when the second one has become longer than the bit time, a difference that has wrapped. -/

namespace AptUsbtrx.Ep1Cf02a

open Word32

namespace Limits

variable (limits : Limits)

@[simp] theorem const_tseg1Min : limits.const.tseg1Min = 1 := by cases limits <;> rfl

@[simp] theorem const_tseg2Min : limits.const.tseg2Min = 1 := by cases limits <;> rfl

@[simp] theorem const_tseg1Max : limits.const.tseg1Max = 2 * limits.const.tseg2Max := by
  cases limits <;> rfl

@[simp] theorem const_sjwMax : limits.const.sjwMax = limits.const.tseg2Max := by
  cases limits <;> rfl

@[simp] theorem const_brpMin : limits.const.brpMin = 1 := by cases limits <;> rfl

@[simp] theorem const_brpInc : limits.const.brpInc = 1 := by cases limits <;> rfl

theorem const_brpMax_le : limits.const.brpMax ≤ 512 := by cases limits <;> decide

theorem tseg2Max_bounds : 16 ≤ limits.const.tseg2Max ∧ limits.const.tseg2Max ≤ 128 := by
  cases limits <;> decide

end Limits

/-! ### The segments -/

/-- The segments make up the bit time and lie in the limits; the first one can be empty. -/
structure InLimits (limits : Limits) (tseg : ℕ) (split : ℕ × ℕ) : Prop where
  sum : split.1 + split.2 = tseg
  tseg1_le : split.1 ≤ 2 * limits.const.tseg2Max
  tseg2_pos : 1 ≤ split.2
  tseg2_le : split.2 ≤ limits.const.tseg2Max

/-- The second segment is the negative difference of the bit time and the first one. -/
structure Wrapped (limits : Limits) (tseg : ℕ) (split : ℕ × ℕ) : Prop where
  tseg_lt : tseg < limits.const.tseg2Max
  tseg1_eq : split.1 = 2 * limits.const.tseg2Max
  tseg2_eq : split.2 = 2 ^ 32 + tseg - 2 * limits.const.tseg2Max

variable {limits : Limits} {nominal tseg i : ℕ}

theorem splitTseg_cases (nominal i : ℕ) (h : tseg ≤ 3 * limits.const.tseg2Max) :
    InLimits limits tseg (splitTseg limits.const nominal tseg i) ∨
      Wrapped limits tseg (splitTseg limits.const nominal tseg i) := by
  have hmax := limits.tseg2Max_bounds
  rw [splitTseg]
  simp only [Limits.const_tseg2Min, Limits.const_tseg1Max]
  generalize sub (sub (add tseg canSyncSeg)
    (mul nominal (add tseg canSyncSeg) / 1000)) i = goal
  have hclamp : 1 ≤ min (max goal 1) limits.const.tseg2Max ∧
      min (max goal 1) limits.const.tseg2Max ≤ limits.const.tseg2Max := by omega
  generalize min (max goal 1) limits.const.tseg2Max = tseg2 at hclamp
  by_cases hle : tseg2 ≤ tseg
  · rw [sub_of_le (by omega) hle]
    split
    next hlong =>
      rw [sub_of_le (by omega) (by omega)]
      refine .inl ⟨?_, Nat.le_refl _, ?_, ?_⟩ <;> dsimp only <;> omega
    next hlong => exact .inl ⟨by dsimp only; omega, Nat.not_lt.mp hlong, hclamp.1, hclamp.2⟩
  · rw [sub_of_gt (a := tseg) (by omega) (by omega), if_pos (by omega),
      sub_of_gt (by omega) (by omega)]
    exact .inr ⟨by omega, rfl, rfl⟩

/-- The sample point of a split, in tenths of a percent. -/
def splitSamplePoint (tseg : ℕ) (split : ℕ × ℕ) : ℕ := 1000 * (split.1 + 1) / (tseg + 1)

theorem samplePoint_eq (h : tseg ≤ 3 * limits.const.tseg2Max) (nominal i : ℕ) :
    mul 1000 (sub (tseg + 1) (splitTseg limits.const nominal tseg i).2) / (tseg + 1) =
      splitSamplePoint tseg (splitTseg limits.const nominal tseg i) := by
  have hmax := limits.tseg2Max_bounds
  rw [splitSamplePoint]
  have hsub : sub (tseg + 1) (splitTseg limits.const nominal tseg i).2 =
      (splitTseg limits.const nominal tseg i).1 + 1 := by
    rcases splitTseg_cases nominal i h with hin | hwrapped
    · have hsum := hin.sum
      rw [sub_of_le (by omega) (by omega)]
      omega
    · have hlt := hwrapped.tseg_lt
      rw [hwrapped.tseg1_eq, hwrapped.tseg2_eq, sub_of_gt (by omega) (by omega)]
      omega
  have hle : (splitTseg limits.const nominal tseg i).1 ≤ 2 * limits.const.tseg2Max := by
    rcases splitTseg_cases nominal i h with hin | hwrapped
    · exact hin.tseg1_le
    · exact Nat.le_of_eq hwrapped.tseg1_eq
  rw [hsub, mul_of_lt (by omega)]

/-- A sample point of more than 2000 goes with a difference that has wrapped. -/
theorem InLimits.samplePoint_le {split : ℕ × ℕ} (h : InLimits limits tseg split) :
    splitSamplePoint tseg split ≤ 1000 := by
  have hsum := h.sum
  have hpos := h.tseg2_pos
  rw [splitSamplePoint]
  apply Nat.div_le_of_le_mul
  rw [Nat.mul_comm (tseg + 1)]
  exact Nat.mul_le_mul_left 1000 (by omega)

theorem Wrapped.samplePoint_eq {split : ℕ × ℕ} (h : Wrapped limits tseg split) :
    splitSamplePoint tseg split = 1000 * (2 * limits.const.tseg2Max + 1) / (tseg + 1) := by
  rw [splitSamplePoint, h.tseg1_eq]

theorem Wrapped.two_thousand_le {split : ℕ × ℕ} (h : Wrapped limits tseg split) :
    2000 ≤ splitSamplePoint tseg split := by
  have hshort := h.tseg_lt
  rw [h.samplePoint_eq, Nat.le_div_iff_mul_le (Nat.succ_pos tseg)]
  omega

/-! ### The rounds -/

/-- What the round `i` has to offer. -/
def roundResult (limits : Limits) (nominal tseg i : ℕ) : SplitResult :=
  let split := splitTseg limits.const nominal tseg i
  ⟨splitSamplePoint tseg split, abs (sub nominal (splitSamplePoint tseg split)), split.1, split.2⟩

theorem roundResult_error_lt (limits : Limits) (nominal tseg i : ℕ) :
    (roundResult limits nominal tseg i).samplePointError < top := by
  have hsub : sub nominal (splitSamplePoint tseg (splitTseg limits.const nominal tseg i)) < 2 ^ 32 :=
    Nat.mod_lt _ (by decide)
  exact (Word32.abs_le hsub).trans_lt (by decide)

theorem updateRound_eq (h : tseg ≤ 3 * limits.const.tseg2Max) (best : SplitResult) (i : ℕ) :
    updateRound limits.const nominal tseg best i =
      some (if (roundResult limits nominal tseg i).samplePoint ≤ nominal ∧
          (roundResult limits nominal tseg i).samplePointError < best.samplePointError then
        roundResult limits nominal tseg i else best) := by
  have hmax := limits.tseg2Max_bounds
  have hbits : add tseg canSyncSeg = tseg + 1 := add_of_lt (by simp only [canSyncSeg]; omega)
  have hpoint := samplePoint_eq h nominal i
  rw [updateRound, hbits, roundResult]
  generalize splitTseg limits.const nominal tseg i = split at hpoint ⊢
  obtain ⟨tseg1, tseg2⟩ := split
  dsimp only at hpoint ⊢
  rw [udiv_of_pos (Nat.succ_pos tseg), hpoint, Option.bind_eq_bind, Option.bind_some]
  exact (apply_ite some _ _ _).symm

/-- `ep1_cf02a_can_update_sample_point` finds this result, whatever its pointers pointed to. -/
structure Accepts (limits : Limits) (nominal tseg : ℕ) (r : SplitResult) : Prop where
  round : ∃ i ≤ 1, r = roundResult limits nominal tseg i
  le_nominal : r.samplePoint ≤ nominal
  update : ∀ tseg1 tseg2, canUpdateSamplePoint limits.const nominal tseg tseg1 tseg2 = some r

/-- One of the two rounds stays below the sample point to go for. -/
def Suits (limits : Limits) (nominal tseg : ℕ) : Prop :=
  (roundResult limits nominal tseg 0).samplePoint ≤ nominal ∨
    (roundResult limits nominal tseg 1).samplePoint ≤ nominal

theorem canUpdateSamplePoint_eq (h : tseg ≤ 3 * limits.const.tseg2Max) (tseg1 tseg2 : ℕ) :
    canUpdateSamplePoint limits.const nominal tseg tseg1 tseg2 =
      updateRound limits.const nominal tseg
        (if (roundResult limits nominal tseg 0).samplePoint ≤ nominal then
          roundResult limits nominal tseg 0 else ⟨0, top, tseg1, tseg2⟩) 1 := by
  have herror := roundResult_error_lt limits nominal tseg 0
  rw [canUpdateSamplePoint, updateRound_eq h, Option.bind_eq_bind, Option.bind_some]
  simp only [herror, and_true]

theorem exists_accepts (h : tseg ≤ 3 * limits.const.tseg2Max) (hsuits : Suits limits nominal tseg) :
    ∃ r, Accepts limits nominal tseg r := by
  have hupdate := @canUpdateSamplePoint_eq limits nominal tseg h
  have herror := roundResult_error_lt limits nominal tseg 1
  by_cases hfirst : (roundResult limits nominal tseg 0).samplePoint ≤ nominal
  · simp only [if_pos hfirst, updateRound_eq h] at hupdate
    by_cases hsecond : (roundResult limits nominal tseg 1).samplePoint ≤ nominal ∧
        (roundResult limits nominal tseg 1).samplePointError <
          (roundResult limits nominal tseg 0).samplePointError
    · simp only [if_pos hsecond] at hupdate
      exact ⟨_, ⟨1, Nat.le_refl 1, rfl⟩, hsecond.1, hupdate⟩
    · simp only [if_neg hsecond] at hupdate
      exact ⟨_, ⟨0, Nat.zero_le 1, rfl⟩, hfirst, hupdate⟩
  · have hsecond := hsuits.resolve_left hfirst
    refine ⟨_, ⟨1, Nat.le_refl 1, rfl⟩, hsecond, fun tseg1 tseg2 => ?_⟩
    rw [hupdate, if_neg hfirst, updateRound_eq h, if_pos ⟨hsecond, herror⟩]

theorem canUpdateSamplePoint_of_not_suits (h : tseg ≤ 3 * limits.const.tseg2Max)
    (hsuits : ¬ Suits limits nominal tseg) (tseg1 tseg2 : ℕ) :
    canUpdateSamplePoint limits.const nominal tseg tseg1 tseg2 = some ⟨0, top, tseg1, tseg2⟩ := by
  rw [Suits, not_or] at hsuits
  rw [canUpdateSamplePoint_eq h, if_neg hsuits.1, updateRound_eq h,
    if_neg fun hsecond => hsuits.2 hsecond.1]

namespace Accepts

variable {r : SplitResult}

theorem suits (h : Accepts limits nominal tseg r) : Suits limits nominal tseg := by
  obtain ⟨i, hi, rfl⟩ := h.round
  rcases Nat.le_one_iff_eq_zero_or_eq_one.mp hi with rfl | rfl
  · exact .inl h.le_nominal
  · exact .inr h.le_nominal

theorem error_lt (h : Accepts limits nominal tseg r) : r.samplePointError < top := by
  obtain ⟨i, -, rfl⟩ := h.round
  exact roundResult_error_lt limits nominal tseg i

theorem samplePoint_eq (h : Accepts limits nominal tseg r) :
    r.samplePoint = splitSamplePoint tseg (r.tseg1, r.tseg2) := by
  obtain ⟨i, -, rfl⟩ := h.round
  rfl

theorem error_eq (h : Accepts limits nominal tseg r) :
    r.samplePointError = abs (sub nominal r.samplePoint) := by
  obtain ⟨i, -, rfl⟩ := h.round
  rfl

theorem cases (h : Accepts limits nominal tseg r) (htseg : tseg ≤ 3 * limits.const.tseg2Max) :
    InLimits limits tseg (r.tseg1, r.tseg2) ∨ Wrapped limits tseg (r.tseg1, r.tseg2) := by
  obtain ⟨i, -, rfl⟩ := h.round
  exact splitTseg_cases nominal i htseg

/-- The segments always add up to the bit time. -/
theorem sum (h : Accepts limits nominal tseg r) (htseg : tseg ≤ 3 * limits.const.tseg2Max) :
    r.tseg1 ≤ 2 * limits.const.tseg2Max ∧ (r.tseg1 + r.tseg2) % 2 ^ 32 = tseg := by
  have hmax := limits.tseg2Max_bounds
  rcases h.cases htseg with hin | hwrapped
  · have hsum := hin.sum
    exact ⟨hin.tseg1_le, by dsimp only at hsum; omega⟩
  · have hlt := hwrapped.tseg_lt
    have h1 := hwrapped.tseg1_eq
    have h2 := hwrapped.tseg2_eq
    dsimp only at h1 h2
    exact ⟨Nat.le_of_eq h1, by omega⟩

end Accepts

/-! ### Sample points beyond the bit time -/

/-- A bit time below the limit of the second segment whose wrapped split is not beyond the sample
point to go for. -/
def Wraps (limits : Limits) (nominal tseg : ℕ) : Prop :=
  tseg < limits.const.tseg2Max ∧
    1000 * (2 * limits.const.tseg2Max + 1) / (tseg + 1) ≤ nominal

instance (limits : Limits) (nominal tseg : ℕ) : Decidable (Wraps limits nominal tseg) :=
  inferInstanceAs (Decidable (_ ∧ _))

theorem inLimits_of_le (nominal i : ℕ) (hlow : limits.const.tseg2Max ≤ tseg)
    (h : tseg ≤ 3 * limits.const.tseg2Max) :
    InLimits limits tseg (splitTseg limits.const nominal tseg i) :=
  (splitTseg_cases nominal i h).resolve_right fun hwrapped =>
    Nat.not_lt.mpr hlow hwrapped.tseg_lt

/-- The longest bit times with a wrapped split have the least sample point. -/
theorem Wraps.lt_nominal (h : Wraps limits nominal tseg) :
    1000 * (2 * limits.const.tseg2Max + 1) / limits.const.tseg2Max ≤ nominal :=
  (Nat.div_le_div_left h.1 (Nat.succ_pos tseg)).trans h.2

theorem Wraps.two_thousand_le (h : Wraps limits nominal tseg) : 2000 ≤ nominal := by
  have hmax := limits.tseg2Max_bounds
  refine le_trans ?_ h.lt_nominal
  rw [Nat.le_div_iff_mul_le (by omega)]
  omega

/-- When the sample point to go for is twice the bit time, the first difference wraps and is cut to
the limit of the second segment. -/
theorem wrapped_of_large (hfits : nominal * (tseg + 1) < 2 ^ 32) (hlarge : 2000 ≤ nominal)
    (hshort : tseg < limits.const.tseg2Max) (hi : i ≤ 1) :
    Wrapped limits tseg (splitTseg limits.const nominal tseg i) := by
  have hmax := limits.tseg2Max_bounds
  have hbits : add tseg canSyncSeg = tseg + 1 := add_of_lt (by simp only [canSyncSeg]; omega)
  have hlow : 2000 * (tseg + 1) ≤ nominal * (tseg + 1) := Nat.mul_le_mul_right _ hlarge
  rw [splitTseg]
  simp only [Limits.const_tseg2Min, Limits.const_tseg1Max]
  rw [hbits, mul_of_lt hfits]
  generalize nominal * (tseg + 1) = product at hfits hlow
  have hgoal : limits.const.tseg2Max ≤ sub (sub (tseg + 1) (product / 1000)) i := by
    rw [sub_of_gt (a := tseg + 1) (by omega) (by omega), sub_of_le (by omega) (by omega)]
    omega
  rw [Nat.min_eq_right (by omega), sub_of_gt (by omega) hshort, if_pos (by omega),
    sub_of_gt (by omega) (by omega)]
  exact ⟨hshort, rfl, rfl⟩

theorem Accepts.wrapped_iff {r : SplitResult} (h : Accepts limits nominal tseg r)
    (hfits : nominal * (tseg + 1) < 2 ^ 32) :
    Wrapped limits tseg (r.tseg1, r.tseg2) ↔ Wraps limits nominal tseg := by
  constructor
  · intro hwrapped
    refine ⟨hwrapped.tseg_lt, ?_⟩
    rw [← hwrapped.samplePoint_eq, ← h.samplePoint_eq]
    exact h.le_nominal
  · intro hwraps
    obtain ⟨i, hi, rfl⟩ := h.round
    exact wrapped_of_large hfits hwraps.two_thousand_le hwraps.1 hi

/-- Beyond twice the bit time the long bit times suit, and of the short ones those with a wrapped
split that is not beyond the sample point. -/
theorem suits_iff (htseg : tseg ≤ 3 * limits.const.tseg2Max) (hfits : nominal * (tseg + 1) < 2 ^ 32)
    (hlarge : 2000 ≤ nominal) :
    Suits limits nominal tseg ↔
      limits.const.tseg2Max ≤ tseg ∨ Wraps limits nominal tseg := by
  constructor
  · intro hsuits
    obtain ⟨r, hr⟩ := exists_accepts htseg hsuits
    rcases Nat.lt_or_ge tseg limits.const.tseg2Max with hshort | hlong
    · obtain ⟨i, hi, heq⟩ := hr.round
      refine .inr ((hr.wrapped_iff hfits).mp ?_)
      rw [heq]
      exact wrapped_of_large hfits hlarge hshort hi
    · exact .inl hlong
  · rintro (hlong | hwraps)
    · exact .inl ((inLimits_of_le nominal 0 hlong htseg).samplePoint_le.trans (by omega))
    · have hwrapped := wrapped_of_large hfits hlarge hwraps.1 (Nat.zero_le 1)
      exact .inl (hwrapped.samplePoint_eq.trans_le hwraps.2)

end AptUsbtrx.Ep1Cf02a
