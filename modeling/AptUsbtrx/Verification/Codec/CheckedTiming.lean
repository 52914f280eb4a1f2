import AptUsbtrx.Verification.BitTiming.Limits
import AptUsbtrx.Verification.Codec.Settings

/-! # Bit timings that pass the check

The check looks at the sum of the first two segments; the packer cuts each field to 16 bits. -/

namespace AptUsbtrx

open Memory ByteOrder Word32

namespace Ep1Cf02a

/-- The fields of `ep1_cf02a_msg_bit_timing_s` are of type `int`. -/
structure BitTiming.IsInts (timing : BitTiming) : Prop where
  propSeg : IsInt timing.propSeg
  phaseSeg1 : IsInt timing.phaseSeg1
  phaseSeg2 : IsInt timing.phaseSeg2
  sjw : IsInt timing.sjw
  brp : IsInt timing.brp

/-- The bytes that the packer writes are decoded to the same bit timing. -/
def RoundTrips (timing : BitTiming) : Prop :=
  parseResponseGetBitTiming (packSetBitTiming timing) = timing

/-- What the driver keeps of a command that was executed is what the device has received. -/
def CachedAsReceived (limits : Limits) (timing : BitTiming) : Prop :=
  ∀ env uniqueData, (setBitTiming limits env uniqueData timing).1.executed = true →
    ∃ payload, (setBitTiming limits env uniqueData timing).1.payload = some payload ∧
      (setBitTiming limits env uniqueData timing).2.timing limits = parseResponseGetBitTiming payload

variable {limits : Limits} {timing : BitTiming}

theorem roundTrips_iff : RoundTrips timing ↔ Setting.InRange .bitTiming timing := by
  constructor
  · intro h
    refine ⟨fun f hf => ?_, fun id hid => by cases hid⟩
    have hget := WordField.get_parse_pack_eq_iff
      (Setting.writtenBy .bitTiming hf (v := timing) (fun id hid => by cases hid))
      (Setting.readBy .bitTiming hf) []
    rw [← hget, List.append_nil]
    exact congrArg f.get h
  · intro h
    have hparse := Setting.parseResp_packReq h []
    rwa [List.append_nil] at hparse

theorem setTiming_timing (uniqueData : UniqueData) :
    (uniqueData.setTiming timing limits).timing limits = timing := by
  cases limits <;> rfl

theorem fits_packSetBitTiming (limits : Limits) (timing : BitTiming) :
    limits.setting.command.Fits (packSetBitTiming timing) := by
  cases limits with
  | nominal =>
      change (Setting.command .bitTiming).Fits (Setting.packReq .bitTiming timing)
      exact Setting.fits_packReq fun id hid => by cases hid
  | data =>
      change (Setting.command .dataBitTiming).Fits (Setting.packReq .dataBitTiming timing)
      exact Setting.fits_packReq fun id hid => by cases hid

/-- A command that was executed has sent what the packer has written, and is remembered. -/
theorem setBitTiming_executed {env : SetEnv} {uniqueData : UniqueData}
    (h : (setBitTiming limits env uniqueData timing).1.executed = true) :
    (setBitTiming limits env uniqueData timing).1.payload = some (packSetBitTiming timing) ∧
      (setBitTiming limits env uniqueData timing).2.timing limits = timing := by
  have hpayload := Command.payload_runSet (fits_packSetBitTiming limits timing) env
  obtain ⟨m, -, -, hrun⟩ := Command.runSet_eq (fits_packSetBitTiming limits timing) env
  rw [setBitTiming] at h ⊢
  dsimp only at h ⊢
  by_cases haccept : checkBitTiming limits.const timing ≠ 0
  · rw [if_pos haccept] at h
    cases h
  rw [if_neg haccept] at h ⊢
  generalize limits.setting.command.runSet env (some (packSetBitTiming timing)) = outcome at *
  by_cases hresult : outcome.result = .success
  · rw [if_neg (not_not.mpr hresult)] at h ⊢
    by_cases hsuccess : outcome.success = some true
    · rw [if_pos hsuccess]
      refine ⟨hpayload.trans (if_pos ?_), setTiming_timing uniqueData⟩
      by_contra hnotSent
      rw [hrun, if_neg hnotSent] at hresult
      cases hresult
    · rw [if_neg hsuccess] at h
      exact absurd (of_decide_eq_true h).2 hsuccess
  · rw [if_pos hresult] at h
    exact absurd (of_decide_eq_true h).1 hresult

theorem cachedAsReceived_of_roundTrips (h : RoundTrips timing) : CachedAsReceived limits timing := by
  intro env uniqueData hexecuted
  obtain ⟨hpayload, htiming⟩ := setBitTiming_executed hexecuted
  exact ⟨_, hpayload, htiming.trans h.symm⟩

/-- The limits are far below 16 bits, so only the two fields of the sum can fail to fit. -/
theorem inRange_iff (hints : timing.IsInts) (haccept : checkBitTiming limits.const timing = 0) :
    Setting.InRange .bitTiming timing ↔ 0 ≤ timing.propSeg ∧ 0 ≤ timing.phaseSeg1 := by
  have htseg2Max := limits.tseg2Max_bounds
  have hbrpMax : limits.const.brpMax ≤ 512 := by cases limits <;> decide
  obtain ⟨⟨-, hsum⟩, ⟨-, hphaseSeg2⟩, hsjw, -, hbrp⟩ :=
    (checkBitTiming_eq_zero_iff limits timing).mp haccept
  rw [ofInt_le_iff hints.phaseSeg2 (by omega)] at hphaseSeg2
  rw [ofInt_le_iff hints.sjw (by omega)] at hsjw
  rw [ofInt_le_iff hints.brp (by omega)] at hbrp
  constructor
  · intro h
    have hfits := h.fits
    simp only [Setting.fields, List.forall_mem_cons] at hfits
    exact ⟨hfits.1.1, hfits.2.1.1⟩
  · rintro ⟨hpropSeg, hphaseSeg1⟩
    have hpropSegMax := hints.propSeg.2
    have hphaseSeg1Max := hints.phaseSeg1.2
    have hsumMax : timing.propSeg + timing.phaseSeg1 ≤ 2 * limits.const.tseg2Max := by
      rw [ofInt] at hsum
      omega
    refine ⟨?_, fun id hid => by cases hid⟩
    simp only [Setting.fields, List.forall_mem_cons, List.not_mem_nil, false_implies, implies_true,
      and_true]
    omega

theorem checked_roundTrips_iff (hints : timing.IsInts)
    (haccept : checkBitTiming limits.const timing = 0) :
    RoundTrips timing ∧ CachedAsReceived limits timing ↔
      0 ≤ timing.propSeg ∧ 0 ≤ timing.phaseSeg1 := by
  rw [← inRange_iff hints haccept, ← roundTrips_iff]
  exact and_iff_left_of_imp cachedAsReceived_of_roundTrips

/-- The bit timing of the tests, for the nominal bitrate. -/
theorem checked_roundTrips_nominal :
    RoundTrips ⟨5, 2, 1, 4, 8⟩ ∧ CachedAsReceived .nominal ⟨5, 2, 1, 4, 8⟩ :=
  (checked_roundTrips_iff ⟨by decide, by decide, by decide, by decide, by decide⟩ (by decide)).mpr
    (by decide)

/-- A negative segment that the other one makes up for is accepted and comes back as 65535. -/
theorem not_roundTrips_negative : BitTiming.IsInts ⟨-1, 2, 1, 1, 1⟩ ∧
    checkBitTiming Limits.nominal.const ⟨-1, 2, 1, 1, 1⟩ = 0 ∧ ¬ RoundTrips ⟨-1, 2, 1, 1, 1⟩ := by
  refine ⟨⟨by decide, by decide, by decide, by decide, by decide⟩, by decide, fun h => ?_⟩
  exact absurd (congrArg BitTiming.propSeg h) (by decide)

end Ep1Cf02a

end AptUsbtrx
