import AptUsbtrx.Verification.BitTiming.Split

/-! # The search for a bit time

What one round of the loop of `ep1_cf02a_can_calc_bittiming` can do, and what the loop has found at
its end. -/

namespace AptUsbtrx.Ep1Cf02a

open Word32

/-! ### The candidates -/

/-- `brp` for a `tseg` of the loop. -/
def prescaler (clockFreq bitrate tseg : ℕ) : ℕ :=
  add (clockFreq / mul (tseg / 2 + 1) bitrate) (tseg % 2)

/-- `bitrate_error` for a `tseg` of the loop. -/
def rateError (clockFreq bitrate tseg : ℕ) : ℕ :=
  abs (sub bitrate (clockFreq / (prescaler clockFreq bitrate tseg * (tseg / 2 + 1))))

/-- `brp` is in its range. -/
def Admissible (limits : Limits) (clockFreq bitrate tseg : ℕ) : Prop :=
  1 ≤ prescaler clockFreq bitrate tseg ∧
    prescaler clockFreq bitrate tseg ≤ limits.const.brpMax

/-- The values of `tseg` in the loop. -/
def InRange (limits : Limits) (tseg : ℕ) : Prop := 4 ≤ tseg ∧ tseg < 6 * limits.const.tseg2Max + 2

variable {limits : Limits} {clockFreq bitrate nominal tseg : ℕ} {s t : Search} {r : SplitResult}

theorem InRange.half_le (h : InRange limits tseg) : tseg / 2 ≤ 3 * limits.const.tseg2Max := by
  have := h.2
  omega

theorem rateError_lt (clockFreq bitrate tseg : ℕ) : rateError clockFreq bitrate tseg < top :=
  (Word32.abs_le (Nat.mod_lt _ (by decide))).trans_lt (by decide)

/-- The bit time in quanta, with the synchronization segment. -/
theorem tsegall_eq (h : InRange limits tseg) : add canSyncSeg (tseg / 2) = tseg / 2 + 1 := by
  have hmax := limits.tseg2Max_bounds
  have hhalf := h.half_le
  rw [add_of_lt (by simp only [canSyncSeg]; omega), canSyncSeg, Nat.add_comm]

theorem candidate_eq_none (h : InRange limits tseg) (hzero : mul (tseg / 2 + 1) bitrate = 0) :
    candidate limits.const clockFreq bitrate tseg = none := by
  rw [candidate, tsegall_eq h]
  dsimp only
  rw [udiv_eq_none_iff.mpr hzero]
  rfl

theorem candidate_eq (h : InRange limits tseg) (hne : mul (tseg / 2 + 1) bitrate ≠ 0) :
    candidate limits.const clockFreq bitrate tseg =
      if prescaler clockFreq bitrate tseg < 1 ∨
          prescaler clockFreq bitrate tseg > limits.const.brpMax then some none
      else (udiv clockFreq (mul (prescaler clockFreq bitrate tseg) (tseg / 2 + 1))).bind fun rate =>
        some (some (prescaler clockFreq bitrate tseg, abs (sub bitrate rate))) := by
  have hlt : add (clockFreq / mul (tseg / 2 + 1) bitrate) (tseg % 2) < 2 ^ 32 :=
    Nat.mod_lt _ (by decide)
  rw [candidate, tsegall_eq h, prescaler]
  dsimp only
  rw [udiv_of_pos (Nat.pos_of_ne_zero hne), Limits.const_brpInc, Option.bind_eq_bind,
    Option.bind_some]
  generalize add (clockFreq / mul (tseg / 2 + 1) bitrate) (tseg % 2) = brp at hlt
  rw [udiv_of_pos Nat.one_pos, Nat.div_one, Option.bind_some, mul_of_lt (by omega), Nat.mul_one,
    Limits.const_brpMin]

theorem candidate_of_admissible (h : InRange limits tseg)
    (hne : mul (tseg / 2 + 1) bitrate ≠ 0) (hadm : Admissible limits clockFreq bitrate tseg) :
    candidate limits.const clockFreq bitrate tseg =
      some (some (prescaler clockFreq bitrate tseg, rateError clockFreq bitrate tseg)) := by
  have hmax := limits.tseg2Max_bounds
  have hbrp := limits.const_brpMax_le
  have hhalf := h.half_le
  obtain ⟨hlow, hhigh⟩ := hadm
  have hsmall : prescaler clockFreq bitrate tseg * (tseg / 2 + 1) ≤ 512 * 385 :=
    Nat.mul_le_mul (by omega) (by omega)
  rw [candidate_eq h hne, if_neg (by omega), mul_of_lt (by omega),
    udiv_of_pos (Nat.mul_pos hlow (Nat.succ_pos _)), Option.bind_some, rateError]

theorem candidate_of_not_admissible (h : InRange limits tseg)
    (hne : mul (tseg / 2 + 1) bitrate ≠ 0) (hadm : ¬ Admissible limits clockFreq bitrate tseg) :
    candidate limits.const clockFreq bitrate tseg = some none := by
  rw [candidate_eq h hne, if_pos (by rw [Admissible] at hadm; omega)]

/-! ### One round -/

/-- The state in which the candidate is the best one. -/
def selected (clockFreq bitrate tseg : ℕ) (r : SplitResult) : Search where
  bestBitrateError := rateError clockFreq bitrate tseg
  bestSamplePointError := r.samplePointError
  bestTseg := tseg / 2
  bestBrp := prescaler clockFreq bitrate tseg
  tseg1 := r.tseg1
  tseg2 := r.tseg2

/-- The bar that the error of the sample point has to clear, after it was reset for a better
bitrate. -/
def bar (clockFreq bitrate tseg : ℕ) (s : Search) : ℕ :=
  if rateError clockFreq bitrate tseg < s.bestBitrateError then top else s.bestSamplePointError

/-- What a round of the loop can do. -/
inductive Round (limits : Limits) (clockFreq bitrate nominal tseg : ℕ) (s : Search) :
    CountDown.Result Search → Prop
  | skipped : ¬ Admissible limits clockFreq bitrate tseg → Round limits _ _ _ _ s (.next s)
  | worse : Admissible limits clockFreq bitrate tseg →
      s.bestBitrateError < rateError clockFreq bitrate tseg → Round limits _ _ _ _ s (.next s)
  | unsuited : Admissible limits clockFreq bitrate tseg →
      rateError clockFreq bitrate tseg ≤ s.bestBitrateError → ¬ Suits limits nominal (tseg / 2) →
      Round limits _ _ _ _ s
        (.next { s with bestSamplePointError := bar clockFreq bitrate tseg s })
  | kept (r : SplitResult) : Admissible limits clockFreq bitrate tseg →
      rateError clockFreq bitrate tseg = s.bestBitrateError → Accepts limits nominal (tseg / 2) r →
      s.bestSamplePointError ≤ r.samplePointError →
      Round limits _ _ _ _ s (.next { s with tseg1 := r.tseg1, tseg2 := r.tseg2 })
  | taken (r : SplitResult) : Admissible limits clockFreq bitrate tseg →
      rateError clockFreq bitrate tseg ≤ s.bestBitrateError →
      Accepts limits nominal (tseg / 2) r → r.samplePointError < bar clockFreq bitrate tseg s →
      Round limits _ _ _ _ s (.next (selected clockFreq bitrate tseg r))
  | stopped (r : SplitResult) : Admissible limits clockFreq bitrate tseg →
      rateError clockFreq bitrate tseg = 0 → r.samplePointError = 0 →
      Accepts limits nominal (tseg / 2) r →
      Round limits _ _ _ _ s (.stop (selected clockFreq bitrate tseg r))

theorem tryCandidate_cases (h : InRange limits tseg)
    (hadm : Admissible limits clockFreq bitrate tseg) (htop : s.bestSamplePointError ≤ top) :
    ∃ flow, tryCandidate limits.const nominal tseg (prescaler clockFreq bitrate tseg)
      (rateError clockFreq bitrate tseg) s = some flow ∧
        Round limits clockFreq bitrate nominal tseg s flow := by
  rw [tryCandidate]
  by_cases hworse : rateError clockFreq bitrate tseg > s.bestBitrateError
  · exact ⟨_, if_pos hworse, .worse hadm hworse⟩
  have hle := Nat.not_lt.mp hworse
  rw [if_neg hworse]
  have hreset : (if rateError clockFreq bitrate tseg < s.bestBitrateError then
      { s with bestSamplePointError := top } else s) =
        { s with bestSamplePointError := bar clockFreq bitrate tseg s } := by
    rw [bar]
    split <;> rfl
  have hbar : bar clockFreq bitrate tseg s ≤ top := by
    rw [bar]
    split <;> omega
  dsimp only
  rw [hreset]
  by_cases hsuits : Suits limits nominal (tseg / 2)
  · obtain ⟨r, hr⟩ := exists_accepts h.half_le hsuits
    rw [hr.update, Option.bind_eq_bind, Option.bind_some]
    dsimp only
    by_cases hkept : r.samplePointError ≥ bar clockFreq bitrate tseg s
    · have herror := hr.error_lt
      have heq : rateError clockFreq bitrate tseg = s.bestBitrateError := by
        by_contra hne
        rw [bar, if_pos (by omega)] at hkept
        omega
      have hsame : bar clockFreq bitrate tseg s = s.bestSamplePointError := by
        rw [bar, if_neg (by omega)]
      rw [if_pos hkept, hsame]
      exact ⟨_, rfl, .kept r hadm heq hr (hsame ▸ hkept)⟩
    · rw [if_neg hkept]
      by_cases hzero : rateError clockFreq bitrate tseg = 0 ∧ r.samplePointError = 0
      · rw [if_pos hzero]
        exact ⟨_, rfl, .stopped r hadm hzero.1 hzero.2 hr⟩
      · rw [if_neg hzero]
        exact ⟨_, rfl, .taken r hadm hle hr (Nat.not_le.mp hkept)⟩
  · rw [canUpdateSamplePoint_of_not_suits h.half_le hsuits, Option.bind_eq_bind, Option.bind_some]
    dsimp only
    rw [if_pos hbar]
    exact ⟨_, rfl, .unsuited hadm hle hsuits⟩

/-- Without a division by zero a round does one of these things. -/
theorem searchBody_cases (h : InRange limits tseg) (hne : mul (tseg / 2 + 1) bitrate ≠ 0)
    (htop : s.bestSamplePointError ≤ top) :
    ∃ flow, searchBody limits.const clockFreq bitrate nominal tseg s = some flow ∧
      Round limits clockFreq bitrate nominal tseg s flow := by
  rw [searchBody]
  by_cases hadm : Admissible limits clockFreq bitrate tseg
  · rw [candidate_of_admissible h hne hadm]
    exact tryCandidate_cases h hadm htop
  · rw [candidate_of_not_admissible h hne hadm]
    exact ⟨_, rfl, .skipped hadm⟩

theorem searchBody_round {flow : CountDown.Result Search} (h : InRange limits tseg)
    (hne : mul (tseg / 2 + 1) bitrate ≠ 0) (htop : s.bestSamplePointError ≤ top)
    (hbody : searchBody limits.const clockFreq bitrate nominal tseg s = some flow) :
    Round limits clockFreq bitrate nominal tseg s flow := by
  obtain ⟨flow', hflow, hround⟩ :=
    @searchBody_cases limits clockFreq bitrate nominal tseg s h hne htop
  rw [hflow] at hbody
  cases hbody
  exact hround

theorem searchBody_eq_none (h : InRange limits tseg) (hzero : mul (tseg / 2 + 1) bitrate = 0) :
    searchBody limits.const clockFreq bitrate nominal tseg s = none := by
  rw [searchBody, candidate_eq_none h hzero]
  rfl

/-! ### The whole loop -/

/-- What has been found among the values of `tseg` from `low` on. -/
inductive Found (limits : Limits) (clockFreq bitrate nominal low : ℕ) (s : Search) : Prop
  | nothing : s.bestBitrateError = top →
      (∀ v, low ≤ v → InRange limits v → Admissible limits clockFreq bitrate v →
        ¬ Suits limits nominal (v / 2)) → Found limits _ _ _ _ s
  | best (v : ℕ) (r : SplitResult) : low ≤ v → InRange limits v →
      Admissible limits clockFreq bitrate v → Accepts limits nominal (v / 2) r →
      s.bestBitrateError = rateError clockFreq bitrate v → s.bestTseg = v / 2 →
      s.bestBrp = prescaler clockFreq bitrate v →
      (∀ w, low ≤ w → InRange limits w → Admissible limits clockFreq bitrate w →
        Suits limits nominal (w / 2) →
          rateError clockFreq bitrate v ≤ rateError clockFreq bitrate w) →
      Found limits _ _ _ _ s

/-- A property of the values done so far and of the next one. -/
theorem forall_inRange_of_succ {P : ℕ → Prop} (hhere : P tseg) (hdone : ∀ w, tseg + 1 ≤ w → P w) :
    ∀ w, tseg ≤ w → P w := by
  intro w hw
  rcases Nat.eq_or_lt_of_le hw with rfl | hlt
  · exact hhere
  · exact hdone w hlt

namespace Found

/-- A value that changes nothing about the best one. -/
theorem extend (h : Found limits clockFreq bitrate nominal (tseg + 1) s)
    (herror : t.bestBitrateError = s.bestBitrateError) (htseg : t.bestTseg = s.bestTseg)
    (hbrp : t.bestBrp = s.bestBrp)
    (hhere : Admissible limits clockFreq bitrate tseg → Suits limits nominal (tseg / 2) →
      s.bestBitrateError ≤ rateError clockFreq bitrate tseg) :
    Found limits clockFreq bitrate nominal tseg t := by
  cases h with
  | nothing htop hdone =>
      refine .nothing (herror.trans htop) (forall_inRange_of_succ (fun _ hadm hsuits => ?_) hdone)
      have := hhere hadm hsuits
      have := rateError_lt clockFreq bitrate tseg
      omega
  | best v r hv hin hadm hr hbest hvtseg hvbrp hdone =>
      refine .best v r (by omega) hin hadm hr (herror.trans hbest) (htseg.trans hvtseg)
        (hbrp.trans hvbrp) (forall_inRange_of_succ (fun _ hadm hsuits => ?_) hdone)
      exact hbest ▸ hhere hadm hsuits

theorem le_of_suits (h : Found limits clockFreq bitrate nominal tseg s) {w : ℕ} (hw : tseg ≤ w)
    (hin : InRange limits w) (hadm : Admissible limits clockFreq bitrate w)
    (hsuits : Suits limits nominal (w / 2)) :
    s.bestBitrateError ≤ rateError clockFreq bitrate w := by
  cases h with
  | nothing htop hdone => exact absurd hsuits (hdone w hw hin hadm)
  | best v r hv _ _ hr hbest _ _ hdone => exact hbest ▸ hdone w hw hin hadm hsuits

theorem next (h : Found limits clockFreq bitrate nominal (tseg + 1) s) (hin : InRange limits tseg)
    (hround : Round limits clockFreq bitrate nominal tseg s (.next t)) :
    Found limits clockFreq bitrate nominal tseg t := by
  cases hround with
  | skipped hadm => exact h.extend rfl rfl rfl fun hadm' => absurd hadm' hadm
  | worse hadm hworse => exact h.extend rfl rfl rfl fun _ _ => Nat.le_of_lt hworse
  | unsuited hadm hle hsuits =>
      exact h.extend rfl rfl rfl fun _ hsuits' => absurd hsuits' hsuits
  | kept r hadm heq hr hkept => exact h.extend rfl rfl rfl fun _ _ => Nat.le_of_eq heq.symm
  | taken r hadm hle hr hbar =>
      refine .best tseg r (Nat.le_refl tseg) hin hadm hr rfl rfl rfl
        (forall_inRange_of_succ (fun _ _ _ => Nat.le_refl _) fun w hw hinw hadmw hsuits => ?_)
      exact hle.trans (h.le_of_suits hw hinw hadmw hsuits)

theorem stop (hin : InRange limits tseg)
    (hround : Round limits clockFreq bitrate nominal tseg s (.stop t)) :
    Found limits clockFreq bitrate nominal 4 t := by
  cases hround with
  | stopped r hadm hzero _ hr =>
      refine .best tseg r hin.1 hin hadm hr rfl rfl rfl fun w _ _ _ _ => ?_
      rw [hzero]
      exact Nat.zero_le _

end Found

theorem Round.bestSamplePointError_le
    (hround : Round limits clockFreq bitrate nominal tseg s (.next t))
    (htop : s.bestSamplePointError ≤ top) : t.bestSamplePointError ≤ top := by
  cases hround with
  | skipped | worse | kept => exact htop
  | unsuited =>
      simp only [bar]
      split <;> omega
  | taken r _ _ hr => exact Nat.le_of_lt hr.error_lt

/-- Among short bit times that reach the best bitrate those with a wrapped split win. -/
structure Prefers (limits : Limits) (clockFreq bitrate nominal low : ℕ) (s : Search) : Prop where
  long : s.bestBitrateError ≠ top → ¬ Wraps limits nominal s.bestTseg →
    nominal ≤ s.bestSamplePointError + 1000
  wraps : ∀ w, low ≤ w → InRange limits w → Admissible limits clockFreq bitrate w →
    Wraps limits nominal (w / 2) → rateError clockFreq bitrate w = s.bestBitrateError →
      Wraps limits nominal s.bestTseg

/-- The products with the sample point fit for all bit times that are tried. -/
def SamplePointFits (limits : Limits) (clockFreq bitrate nominal : ℕ) : Prop :=
  ∀ v, InRange limits v → Admissible limits clockFreq bitrate v → nominal * (v / 2 + 1) < 2 ^ 32

theorem SamplePointFits.lt (h : SamplePointFits limits clockFreq bitrate nominal)
    (hin : InRange limits tseg) (hadm : Admissible limits clockFreq bitrate tseg) :
    nominal < 2 ^ 31 := by
  have hfits := h tseg hin hadm
  have hlow := hin.1
  have htwo : nominal * 2 ≤ nominal * (tseg / 2 + 1) := Nat.mul_le_mul_left _ (by omega)
  omega

/-- The error of a sample point is what lies between it and the one to go for. -/
theorem Accepts.error_add (hr : Accepts limits nominal tseg r) (hlt : nominal < 2 ^ 31) :
    r.samplePointError + r.samplePoint = nominal := by
  have hle := hr.le_nominal
  rw [hr.error_eq, Word32.abs_sub hlt (by omega)]
  omega

/-- A split that has not wrapped is far from a sample point beyond the bit time. -/
theorem Accepts.error_of_not_wraps (hr : Accepts limits nominal tseg r)
    (htseg : tseg ≤ 3 * limits.const.tseg2Max) (hfits : nominal * (tseg + 1) < 2 ^ 32)
    (hlt : nominal < 2 ^ 31) (h : ¬ Wraps limits nominal tseg) :
    nominal ≤ r.samplePointError + 1000 := by
  have hin := (hr.cases htseg).resolve_right fun hwrapped => h ((hr.wrapped_iff hfits).mp hwrapped)
  have hle : r.samplePoint ≤ 1000 := hr.samplePoint_eq ▸ hin.samplePoint_le
  have herror := hr.error_add hlt
  omega

theorem Accepts.error_of_wraps (hr : Accepts limits nominal tseg r)
    (hfits : nominal * (tseg + 1) < 2 ^ 32) (hlt : nominal < 2 ^ 31)
    (h : Wraps limits nominal tseg) : r.samplePointError + 2000 ≤ nominal := by
  have hwrapped := (hr.wrapped_iff hfits).mpr h
  have hsample : 2000 ≤ r.samplePoint := hr.samplePoint_eq ▸ hwrapped.two_thousand_le
  have herror := hr.error_add hlt
  omega

namespace Prefers

theorem next (h : Prefers limits clockFreq bitrate nominal (tseg + 1) s)
    (hfits : SamplePointFits limits clockFreq bitrate nominal) (hin : InRange limits tseg)
    (hround : Round limits clockFreq bitrate nominal tseg s (.next t)) :
    Prefers limits clockFreq bitrate nominal tseg t := by
  have htseg := hin.half_le
  cases hround with
  | skipped hadm =>
      exact ⟨h.long, forall_inRange_of_succ (fun _ hadm' => absurd hadm' hadm) h.wraps⟩
  | worse hadm hworse =>
      refine ⟨h.long, forall_inRange_of_succ (fun _ _ _ heq => ?_) h.wraps⟩
      omega
  | unsuited hadm hle hsuits =>
      have hlt := hfits.lt hin hadm
      refine ⟨fun hne hwraps => ?_,
        forall_inRange_of_succ (fun _ _ hwraps => absurd ?_ hsuits) h.wraps⟩
      · have hlong := h.long hne hwraps
        simp only [bar]
        split
        · simp only [top]
          omega
        · exact hlong
      · exact (suits_iff htseg (hfits tseg hin hadm) hwraps.two_thousand_le).mpr (.inr hwraps)
  | kept r hadm heq hr hkept =>
      have hlt := hfits.lt hin hadm
      refine ⟨h.long, forall_inRange_of_succ (fun _ _ hwraps _ => ?_) h.wraps⟩
      by_contra hnot
      have herror := hr.error_of_wraps (hfits tseg hin hadm) hlt hwraps
      have hlong := h.long (fun htop => by
        have := rateError_lt clockFreq bitrate tseg
        omega) hnot
      omega
  | taken r hadm hle hr hbar =>
      have hlt := hfits.lt hin hadm
      refine ⟨fun _ hnot => hr.error_of_not_wraps htseg (hfits tseg hin hadm) hlt hnot, ?_⟩
      refine forall_inRange_of_succ (fun _ _ hwraps _ => hwraps) fun w hw hinw hadmw hwraps heq => ?_
      -- the value is smaller than `w`, so its bit time is a short one too
      have hshort : tseg / 2 < limits.const.tseg2Max :=
        (Nat.div_le_div_right (Nat.le_of_lt hw)).trans_lt hwraps.1
      have hsuits := (suits_iff htseg (hfits tseg hin hadm) hwraps.two_thousand_le).mp hr.suits
      exact hsuits.resolve_left (Nat.not_le.mpr hshort)

theorem stop (hfits : SamplePointFits limits clockFreq bitrate nominal) (hin : InRange limits tseg)
    (hround : Round limits clockFreq bitrate nominal tseg s (.stop t)) :
    Prefers limits clockFreq bitrate nominal 4 t := by
  cases hround with
  | stopped r hadm hzero hexact hr =>
      have hlt := hfits.lt hin hadm
      have hlong := hr.error_of_not_wraps hin.half_le (hfits tseg hin hadm) hlt
      refine ⟨fun _ hnot => hlong hnot, fun w _ _ _ hwraps _ => ?_⟩
      by_contra hnot
      have hlarge := hwraps.two_thousand_le
      have hsmall := hlong hnot
      omega

end Prefers

theorem search_eq (limits : Limits) (clockFreq bitrate nominal : ℕ) :
    search limits.const clockFreq bitrate nominal =
      CountDown.run (searchBody limits.const clockFreq bitrate nominal) 4
        (6 * limits.const.tseg2Max - 2) ⟨top, top, 0, 0, 0, 0⟩ := by
  rw [search, Limits.const_tseg1Max, Limits.const_tseg1Min, Limits.const_tseg2Min]
  congr 1
  omega

/-- What the loop has found at its end. -/
theorem search_found (hne : ∀ v, InRange limits v → mul (v / 2 + 1) bitrate ≠ 0)
    (h : search limits.const clockFreq bitrate nominal = some t) :
    Found limits clockFreq bitrate nominal 4 t ∧
      (SamplePointFits limits clockFreq bitrate nominal →
        Prefers limits clockFreq bitrate nominal 4 t) := by
  have hmax := limits.tseg2Max_bounds
  rw [search_eq] at h
  have hround : ∀ v u flow, 4 ≤ v → v < 4 + (6 * limits.const.tseg2Max - 2) →
      u.bestSamplePointError ≤ top →
      searchBody limits.const clockFreq bitrate nominal v u = some flow →
        InRange limits v ∧ Round limits clockFreq bitrate nominal v u flow := by
    intro v u flow hlow hhigh htop hbody
    have hin : InRange limits v := ⟨hlow, by omega⟩
    exact ⟨hin, searchBody_round hin (hne v hin) htop hbody⟩
  have hfrom : ∀ w, 4 + (6 * limits.const.tseg2Max - 2) ≤ w → ¬ InRange limits w := by
    intro w hw hin
    have := hin.2
    omega
  refine CountDown.run_invariant
    (I := fun v u => u.bestSamplePointError ≤ top ∧ Found limits clockFreq bitrate nominal v u ∧
      (SamplePointFits limits clockFreq bitrate nominal →
        Prefers limits clockFreq bitrate nominal v u))
    (Q := fun u => Found limits clockFreq bitrate nominal 4 u ∧
      (SamplePointFits limits clockFreq bitrate nominal →
        Prefers limits clockFreq bitrate nominal 4 u))
    ?_ ?_ (fun u hdone => hdone.2) ?_ h
  · rintro v u u' hlow hhigh ⟨htop, hfound, hprefers⟩ hbody
    obtain ⟨hin, hstep⟩ := hround v u _ hlow hhigh htop hbody
    exact ⟨hstep.bestSamplePointError_le htop, hfound.next hin hstep,
      fun hfits => (hprefers hfits).next hfits hin hstep⟩
  · rintro v u u' hlow hhigh ⟨htop, -, -⟩ hbody
    obtain ⟨hin, hstep⟩ := hround v u _ hlow hhigh htop hbody
    exact ⟨Found.stop hin hstep, fun hfits => Prefers.stop hfits hin hstep⟩
  · refine ⟨Nat.le_refl top, .nothing rfl fun w hw hin => absurd hin (hfrom w hw),
      fun _ => ⟨fun hne => absurd rfl hne, fun w hw hin => absurd hin (hfrom w hw)⟩⟩

end AptUsbtrx.Ep1Cf02a
