import AptUsbtrx.Model.ApCt2aSet
import AptUsbtrx.Verification.Command.SetCommand
import AptUsbtrx.Verification.Msg.Words

/-! # What the CAN units report of their settings

Mode and trigger of AP-CT2A against its status, and the bit timing of EP1-CH02A against the one that
it reports. -/

namespace AptUsbtrx

open Memory ByteOrder Ep1Cf02a

namespace ApCt2a

/-! ### Mode and trigger -/

def TriggerLogic.inverted : TriggerLogic → TriggerLogic
  | positive => negative
  | negative => positive

def Trigger.inverted (trigger : Trigger) : Trigger :=
  { trigger with logic := trigger.logic.inverted }

def SetTrigger.inverted (param : SetTrigger) : SetTrigger :=
  { param with input := param.input.inverted, output := param.output.inverted }

/-- Ids of 11 bits and pulses of 16 bits. -/
structure SetTrigger.InRange (param : SetTrigger) : Prop where
  input : param.input.id < 2 ^ 11
  output : param.output.id < 2 ^ 11
  pulseWidth : param.pulseWidth < 2 ^ 16
  pulseInterval : param.pulseInterval < 2 ^ 16

/-- A status with the bytes of the two messages has the mode and the trigger that they were written
from. -/
def Returns (mode : SetMode) (trigger : SetTrigger) : Prop :=
  ∀ data, packSetMode mode = some data → ∀ tail, ∃ status,
    parseResponseGetStatus (data ++ packSetTrigger trigger ++ tail) = some status ∧
      status.mode = mode ∧ status.trigger = trigger

/-- Every baudrate that is accepted comes back from its code, next to the flags. -/
theorem mode_roundTrip {baudrate : ℤ} {code : UInt8} (h : convertBaudrateMode baudrate = some code)
    (silent start : Bool) :
    ∃ value : ℕ, convertBaudrateValue (modeByte silent start code &&& 0x1f).toNat = some value ∧
      (value : ℤ) = baudrate ∧ (modeByte silent start code).toNat.testBit 7 = false ∧
        (!(modeByte silent start code).toNat.testBit 6) = silent ∧
          (modeByte silent start code).toNat.testBit 5 = start := by
  have hall : ∀ p ∈ bitrateModes, ∀ silent start : Bool,
      ∃ value ∈ [33, 50, 83, 100, 125, 250, 500, 1000],
      convertBaudrateValue (modeByte silent start p.2 &&& 0x1f).toNat = some value ∧
      (value : ℤ) = p.1 ∧ (modeByte silent start p.2).toNat.testBit 7 = false ∧
        (!(modeByte silent start p.2).toNat.testBit 6) = silent ∧
          (modeByte silent start p.2).toNat.testBit 5 = start := by
    decide
  obtain ⟨before, after, hmodes, -⟩ := List.lookup_eq_some_iff.mp h
  obtain ⟨value, -, hvalue⟩ := hall (baudrate, code) (by rw [hmodes]; simp) silent start
  exact ⟨value, hvalue⟩

/-- The flags do not touch the three bits below, and the one of the logic is set when the logic is
positive. -/
theorem triggerFlags_bits {upper : UInt8} (h : upper.toNat < 2 ^ 3) (enable : Bool)
    (logic : TriggerLogic) :
    (triggerFlags enable logic upper).toNat.testBit 7 = enable ∧
      (triggerFlags enable logic upper).toNat.testBit 6 = decide (logic = .positive) ∧
        (triggerFlags enable logic upper &&& 0x07) = upper := by
  have hall : ∀ n < 2 ^ 3, ∀ enable : Bool,
      (triggerFlags enable .positive (UInt8.ofNat n)).toNat.testBit 7 = enable ∧
      (triggerFlags enable .negative (UInt8.ofNat n)).toNat.testBit 7 = enable ∧
      (triggerFlags enable .positive (UInt8.ofNat n)).toNat.testBit 6 = true ∧
      (triggerFlags enable .negative (UInt8.ofNat n)).toNat.testBit 6 = false ∧
      triggerFlags enable .positive (UInt8.ofNat n) &&& 0x07 = UInt8.ofNat n ∧
      triggerFlags enable .negative (UInt8.ofNat n) &&& 0x07 = UInt8.ofNat n := by
    decide
  have hupper := hall upper.toNat h enable
  rw [UInt8.ofNat_toNat] at hupper
  obtain ⟨hpos7, hneg7, hpos6, hneg6, hpos, hneg⟩ := hupper
  cases logic with
  | positive => exact ⟨hpos7, hpos6, hpos⟩
  | negative => exact ⟨hneg7, hneg6, hneg⟩

theorem length_packTrigger (trigger : Trigger) : (packTrigger trigger).length = 2 := rfl

theorem parseTrigger_packTrigger {trigger : Trigger} (h : trigger.id < 2 ^ 11)
    (front tail : List UInt8) :
    parseTrigger (front ++ packTrigger trigger ++ tail) front.length = trigger.inverted := by
  have hupper : (UInt8.ofNat (trigger.id >>> 8) &&& 0x07).toNat = trigger.id / 2 ^ 8 := by
    rw [UInt8.toNat_and, UInt8.toNat_ofNat', Nat.shiftRight_eq_div_pow]
    change trigger.id / 2 ^ 8 % 2 ^ 8 &&& (2 ^ 3 - 1) = _
    rw [Nat.and_two_pow_sub_one_eq_mod]
    omega
  have hupperMax : (UInt8.ofNat (trigger.id >>> 8) &&& 0x07).toNat < 2 ^ 3 := by omega
  obtain ⟨henable, hlogic, hid⟩ := triggerFlags_bits hupperMax trigger.enable trigger.logic
  have hlow : byteAt (front ++ packTrigger trigger ++ tail) front.length =
      UInt8.ofNat trigger.id := by
    rw [List.append_assoc]
    exact byteAt_append_length front _ _
  have hhigh : byteAt (front ++ packTrigger trigger ++ tail) (front.length + 1) =
      triggerFlags trigger.enable trigger.logic (UInt8.ofNat (trigger.id >>> 8) &&& 0x07) := by
    rw [List.append_assoc, ← byteAt_drop, List.drop_left]
    rfl
  have hlowNat : (UInt8.ofNat trigger.id).toNat = trigger.id % 2 ^ 8 := UInt8.toNat_ofNat'
  rw [parseTrigger, bitAt, bitAt, hlow, hhigh, henable, hlogic, hid, hupper,
    or_shiftLeft (UInt8.toNat_lt _), hlowNat, Nat.mod_add_div, Trigger.inverted]
  cases trigger.logic <;> rfl

/-- What a status with the bytes of the two messages says: everything as it was written, but the
logic of the triggers the other way round. -/
theorem parseResponseGetStatus_packed {mode : SetMode} {data : List UInt8} {trigger : SetTrigger}
    (hmode : packSetMode mode = some data) (htrigger : trigger.InRange) (tail : List UInt8) :
    parseResponseGetStatus (data ++ packSetTrigger trigger ++ tail) =
      some ⟨mode, false, trigger.inverted⟩ := by
  obtain ⟨code, hcode, rfl⟩ := Option.map_eq_some_iff.mp hmode
  obtain ⟨baudrate, hvalue, hbaudrate, hbit7, hsilent, hstart⟩ :=
    mode_roundTrip hcode mode.silent mode.start
  generalize modeByte mode.silent mode.start code = byte at *
  have hinput : parseTrigger ([byte] ++ packSetTrigger trigger ++ tail) 1 =
      trigger.input.inverted := by
    have hparse := parseTrigger_packTrigger htrigger.input [byte]
      (packTrigger trigger.output ++ littleEndian 2 trigger.pulseWidth ++
        littleEndian 2 trigger.pulseInterval ++ tail)
    simpa [packSetTrigger] using hparse
  have houtput : parseTrigger ([byte] ++ packSetTrigger trigger ++ tail) 3 =
      trigger.output.inverted := by
    have hparse := parseTrigger_packTrigger htrigger.output ([byte] ++ packTrigger trigger.input)
      (littleEndian 2 trigger.pulseWidth ++ littleEndian 2 trigger.pulseInterval ++ tail)
    simpa [packSetTrigger, length_packTrigger] using hparse
  have hwidth : le16 ([byte] ++ packSetTrigger trigger ++ tail) 5 = trigger.pulseWidth := by
    have hread := le16_littleEndian ([byte] ++ packTrigger trigger.input ++
      packTrigger trigger.output) (littleEndian 2 trigger.pulseInterval ++ tail) htrigger.pulseWidth
    simpa [packSetTrigger, length_packTrigger] using hread
  have hinterval : le16 ([byte] ++ packSetTrigger trigger ++ tail) 7 = trigger.pulseInterval := by
    have hread := le16_littleEndian ([byte] ++ packTrigger trigger.input ++
      packTrigger trigger.output ++ littleEndian 2 trigger.pulseWidth) tail htrigger.pulseInterval
    simpa [packSetTrigger, length_packTrigger] using hread
  have hbyte : byteAt ([byte] ++ packSetTrigger trigger ++ tail) 0 = byte := rfl
  rw [parseResponseGetStatus, hinput, houtput, hwidth, hinterval, bitAt, bitAt, bitAt, hbyte, hvalue,
    Option.map_some, hbit7, hsilent, hstart, hbaudrate, SetTrigger.inverted]

/-- No setting comes back. -/
theorem not_returns {mode : SetMode} {data : List UInt8} {trigger : SetTrigger}
    (hmode : packSetMode mode = some data) (htrigger : trigger.InRange) :
    ¬ Returns mode trigger := by
  intro h
  obtain ⟨status, hparse, -, hstatus⟩ := h data hmode []
  rw [parseResponseGetStatus_packed hmode htrigger] at hparse
  cases hparse
  have hlogic := congrArg (fun param => param.input.logic) hstatus
  change trigger.input.logic.inverted = trigger.input.logic at hlogic
  revert hlogic
  cases trigger.input.logic <;> decide

/-- The setting of the tests. -/
theorem not_returns_test : ¬ Returns ⟨true, true, 1000⟩ ⟨⟨true, .negative, 0x123⟩,
    ⟨true, .positive, 0x456⟩, 20, 1000⟩ :=
  not_returns (show packSetMode ⟨true, true, 1000⟩ = some [0x37] by decide)
    ⟨by decide, by decide, by decide, by decide⟩

/-- A trigger with positive logic is read as one with negative logic. -/
theorem parseTrigger_positive : ∃ data, packSetMode ⟨false, false, 500⟩ = some data ∧
    (parseResponseGetStatus (data ++ packSetTrigger
      ⟨⟨true, .positive, 1⟩, ⟨true, .positive, 2⟩, 1, 2⟩)).map (·.trigger.input.logic) =
        some .negative :=
  ⟨[0x56], by decide, by decide⟩

end ApCt2a

namespace Ep1Ch02a

/-! ### Bit timing -/

/-- The values of a response that can also be set. -/
def RespGetBitTiming.timing (resp : RespGetBitTiming) : SetBitTiming :=
  ⟨resp.propSeg, resp.phaseSeg1, resp.phaseSeg2, resp.sjw, resp.brp⟩

/-- A response with this payload behind its clock has these values. -/
def Decodes (payload : List UInt8) (param : SetBitTiming) : Prop :=
  ∀ clock : List UInt8, clock.length = 4 →
    (parseResponseGetBitTiming (clock ++ payload)).timing = param

/-- The call fails and sends nothing, or what it sends is the same bit timing. -/
def Untruncated (copied : Bool) (env : SetEnv) (param : SetBitTiming) : Prop :=
  ((ioctl copied env param).1 ≠ 0 ∧ (ioctl copied env param).2.request = none) ∨
    ∃ payload, (ioctl copied env param).2.payload = some payload ∧ Decodes payload param

/-- Every value fits in its bytes. -/
structure SetBitTiming.Fits (param : SetBitTiming) : Prop where
  propSeg : 0 ≤ param.propSeg ∧ param.propSeg < 2 ^ 8
  phaseSeg1 : 0 ≤ param.phaseSeg1 ∧ param.phaseSeg1 < 2 ^ 8
  phaseSeg2 : 0 ≤ param.phaseSeg2 ∧ param.phaseSeg2 < 2 ^ 8
  sjw : 0 ≤ param.sjw ∧ param.sjw < 2 ^ 8
  brp : 0 ≤ param.brp ∧ param.brp < 2 ^ 16

variable {copied : Bool} {env : SetEnv} {param : SetBitTiming}

/-- What the payload says is cut to the width of each field. -/
theorem timing_packSetBitTiming {clock : List UInt8} (h : clock.length = 4) :
    (parseResponseGetBitTiming (clock ++ packSetBitTiming param)).timing =
      ⟨param.propSeg % 2 ^ 8, param.phaseSeg1 % 2 ^ 8, param.phaseSeg2 % 2 ^ 8, param.sjw % 2 ^ 8,
        param.brp % 2 ^ 16⟩ := by
  obtain ⟨c0, c1, c2, c3, rfl⟩ := List.length_eq_four.mp h
  have hbrp := ofLittleEndian_slice_littleEndian ([c0, c1, c2, c3] ++ [UInt8.ofInt param.propSeg,
    UInt8.ofInt param.phaseSeg1, UInt8.ofInt param.phaseSeg2, UInt8.ofInt param.sjw]) [] 2 param.brp
  rw [← le16_eq_ofLittleEndian, List.append_nil, List.append_assoc] at hbrp
  rw [RespGetBitTiming.timing, SetBitTiming.mk.injEq]
  exact ⟨natCast_toNat_ofInt _, natCast_toNat_ofInt _, natCast_toNat_ofInt _, natCast_toNat_ofInt _,
    hbrp⟩

theorem decodes_iff : Decodes (packSetBitTiming param) param ↔ param.Fits := by
  have hmod (x : ℤ) {m : ℤ} (hm : 0 < m) : x % m = x ↔ 0 ≤ x ∧ x < m :=
    ⟨fun h => h ▸ ⟨Int.emod_nonneg x hm.ne', Int.emod_lt_of_pos x hm⟩, fun h =>
      Int.emod_eq_of_lt h.1 h.2⟩
  have hdecodes : Decodes (packSetBitTiming param) param ↔
      (⟨param.propSeg % 2 ^ 8, param.phaseSeg1 % 2 ^ 8, param.phaseSeg2 % 2 ^ 8, param.sjw % 2 ^ 8,
        param.brp % 2 ^ 16⟩ : SetBitTiming) = param := by
    constructor
    · intro h
      have hzero : ([0, 0, 0, 0] : List UInt8).length = 4 := rfl
      rw [← timing_packSetBitTiming hzero]
      exact h _ rfl
    · intro h clock hclock
      rw [timing_packSetBitTiming hclock, h]
  rw [hdecodes]
  obtain ⟨propSeg, phaseSeg1, phaseSeg2, sjw, brp⟩ := param
  rw [SetBitTiming.mk.injEq, hmod _ (by decide), hmod _ (by decide), hmod _ (by decide),
    hmod _ (by decide), hmod _ (by decide)]
  constructor
  · rintro ⟨h1, h2, h3, h4, h5⟩
    exact ⟨h1, h2, h3, h4, h5⟩
  · rintro ⟨h1, h2, h3, h4, h5⟩
    exact ⟨h1, h2, h3, h4, h5⟩

theorem fits_setBitTimingCommand (param : SetBitTiming) :
    setBitTimingCommand.Fits (packSetBitTiming param) :=
  ⟨by decide, by decide, rfl⟩

/-- The call by what the command comes to. -/
theorem ioctl_eq (copied : Bool) (env : SetEnv) (param : SetBitTiming) :
    ioctl copied env param =
      if copied then
        (if (setBitTimingCommand.runSet env (some (packSetBitTiming param))).executed then 0
          else -eio,
          setBitTimingCommand.runSet env (some (packSetBitTiming param)))
      else (-efault, .notSent) := by
  rw [ioctl, ioctlSetBitTiming]
  generalize setBitTimingCommand.runSet env (some (packSetBitTiming param)) = outcome
  obtain ⟨result, success, request⟩ := outcome
  cases copied <;> cases result <;> rcases success with _ | _ | _ <;> rfl

theorem not_untruncated_of_not_fits (hsent : copied ∧ env.allocated ∧ env.down)
    (h : ¬ param.Fits) : ¬ Untruncated copied env param := by
  obtain ⟨hcopied, hdown⟩ := hsent
  have hpayload := Command.payload_runSet (fits_setBitTimingCommand param) env
  rw [if_pos hdown] at hpayload
  rw [Untruncated, ioctl_eq, if_pos hcopied]
  rintro (⟨-, hrequest⟩ | ⟨payload, hpayload', hdecodes⟩)
  · rw [SetOutcome.payload, hrequest] at hpayload
    cases hpayload
  · rw [hpayload] at hpayload'
    cases hpayload'
    exact h (decodes_iff.mp hdecodes)

theorem untruncated_of_fits (h : param.Fits) (hcopied : copied)
    (hdown : env.allocated ∧ env.down) : Untruncated copied env param := by
  have hpayload := Command.payload_runSet (fits_setBitTimingCommand param) env
  rw [if_pos hdown] at hpayload
  refine .inr ⟨_, ?_, decodes_iff.mpr h⟩
  rw [ioctl_eq, if_pos hcopied]
  exact hpayload

/-- Nothing is sent when the arguments cannot be copied, or the command does not get as far as
`usb_bulk_msg`. -/
theorem untruncated_of_notSent (h : ¬ (copied ∧ env.allocated ∧ env.down)) :
    Untruncated copied env param := by
  refine .inl ?_
  rw [ioctl_eq]
  by_cases hcopied : copied
  · obtain ⟨m, -, -, hrun⟩ := Command.runSet_eq (fits_setBitTimingCommand param) env
    rw [if_pos hcopied, hrun, if_neg fun hdown => h ⟨hcopied, hdown⟩]
    exact ⟨by decide, rfl⟩
  · rw [if_neg hcopied]
    exact ⟨by decide, rfl⟩

theorem untruncated_iff (copied : Bool) (env : SetEnv) (param : SetBitTiming) :
    Untruncated copied env param ↔ ¬ (copied ∧ env.allocated ∧ env.down) ∨ param.Fits := by
  constructor
  · intro h
    by_contra hfails
    rw [not_or, not_not] at hfails
    exact not_untruncated_of_not_fits hfails.1 hfails.2 h
  · rintro (hnotSent | hfits)
    · exact untruncated_of_notSent hnotSent
    · by_cases hsent : copied ∧ env.allocated ∧ env.down
      · exact untruncated_of_fits hfits hsent.1 hsent.2
      · exact untruncated_of_notSent hsent

/-- A segment of 256 is sent as 0, which the device acknowledges. -/
theorem not_untruncated_propSeg :
    (ioctl true ⟨true, true, true, (.success, [0xF7, 5, 0x25, 0x0B, 0xFA]), .zero, .zero⟩
      ⟨256, 2, 1, 4, 8⟩).1 = 0 ∧
    ¬ Untruncated true ⟨true, true, true, (.success, [0xF7, 5, 0x25, 0x0B, 0xFA]), .zero, .zero⟩
      ⟨256, 2, 1, 4, 8⟩ :=
  ⟨by decide, not_untruncated_of_not_fits ⟨rfl, rfl, rfl⟩ fun h => absurd h.propSeg.2 (by decide)⟩

end Ep1Ch02a

end AptUsbtrx
