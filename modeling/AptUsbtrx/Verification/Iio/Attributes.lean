import AptUsbtrx.Model.Ep1Ag08aIio
import Mathlib.Tactic.FinCases

/-! # The attributes of the analog unit

A message carries a whole record: the attribute that is set with its new byte, and the others with
what the status said of them. -/

namespace AptUsbtrx

open Memory

namespace Ep1Ag08a

inductive Attribute where
  | inVoltRange (ch : Ch)
  | inVoltSampFreq
  | outVoltWaveformType
  | outVoltRaw
  | outVoltFrequency
  | outVoltEnable
  deriving DecidableEq

/-- The messages that set attributes. -/
inductive Record where
  | setAnalogInput
  | setAnalogOutput
  | controlAnalogOutput
  deriving DecidableEq

namespace Attribute

/-- The message that carries the attribute. -/
def record : Attribute → Record
  | inVoltRange _ | inVoltSampFreq => .setAnalogInput
  | outVoltWaveformType | outVoltRaw | outVoltFrequency => .setAnalogOutput
  | outVoltEnable => .controlAnalogOutput

/-- The byte that goes back for one that the status has; the workaround replaces zeros of the
output. -/
def resent : Attribute → UInt8 → UInt8
  | outVoltRaw, b | outVoltFrequency, b => if b = 0 then 1 else b
  | _, b => b

end Attribute

/-- The byte of an attribute in the unit. -/
def AnalogUnit.held (unit : AnalogUnit) : Attribute → UInt8
  | .inVoltRange ch => unit.inputVoltage ch
  | .inVoltSampFreq => unit.sendRate
  | .outVoltWaveformType => unit.waveformType
  | .outVoltRaw => unit.outputVoltage
  | .outVoltFrequency => unit.frequency
  | .outVoltEnable => unit.outputStart

/-- A voltage or a frequency of the output in the unit's own scale. -/
def outputByte (value scale : ℤ) : UInt8 :=
  UInt8.ofInt ((if value = 0 then scale else value).tdiv scale)

/-- The attribute that an operation changes, with the byte that the message has for it. -/
def Setter.change : Setter → Option (Attribute × UInt8)
  | setInVoltRangeMode ch mode =>
      (inVoltRangeModesTbl.lookup mode).map fun voltage => (.inVoltRange ch, voltage)
  | setInVoltSampFreqMode mode =>
      ((inVoltSampFreqModesTbl.lookup mode).bind convertSendRateToValue).map fun sendRate =>
        (.inVoltSampFreq, sendRate)
  | setOutVoltWaveformTypeMode mode =>
      (outVoltWaveformTypeModesTbl.lookup mode).map fun waveformType =>
        (.outVoltWaveformType, UInt8.ofInt waveformType)
  | writeRaw val val2 .raw =>
      some (.outVoltRaw, outputByte (toMilli val val2) outputConvertScaleVoltage)
  | writeRaw val val2 .frequency =>
      some (.outVoltFrequency, outputByte (toMilli val val2) outputConvertScaleFrequency)
  | writeRaw val _ .enable => some (.outVoltEnable, if val ≠ 0 then 1 else 0)
  | writeRaw _ _ .other => none

theorem Setter.lookup_of_change {op : Setter} {a : Attribute} {b : UInt8}
    (h : op.change = some (a, b)) : op.lookup = true := by
  cases op with
  | setInVoltRangeMode ch mode =>
      obtain ⟨voltage, hlookup, -⟩ := Option.map_eq_some_iff.mp h
      simp [lookup, hlookup]
  | setInVoltSampFreqMode mode =>
      obtain ⟨sendRate, hsend, -⟩ := Option.map_eq_some_iff.mp h
      obtain ⟨rate, hlookup, -⟩ := Option.bind_eq_some_iff.mp hsend
      simp [lookup, hlookup]
  | setOutVoltWaveformTypeMode mode =>
      obtain ⟨waveformType, hlookup, -⟩ := Option.map_eq_some_iff.mp h
      simp [lookup, hlookup]
  | writeRaw val val2 mask => rfl

/-! ### There and back -/

theorem mem_of_lookup {α β : Type} [BEq α] [LawfulBEq α] {a : α} {b : β} {l : List (α × β)}
    (h : l.lookup a = some b) : (a, b) ∈ l := by
  obtain ⟨before, after, rfl, -⟩ := List.lookup_eq_some_iff.mp h
  exact List.mem_append_right _ List.mem_cons_self

theorem convertSendRateToValue_of_fromValue {b : UInt8} {rate : ℤ}
    (h : convertSendRateFromValue b = some rate) : convertSendRateToValue rate = some b := by
  have hall : ∀ p ∈ sendRates, convertSendRateToValue p.2 = some p.1 := by decide
  exact hall _ (mem_of_lookup h)

theorem convertInputVoltageToValue_of_fromValue {b : UInt8} {v : ℤ × ℤ}
    (h : convertInputVoltageFromValue b = some v) :
    convertInputVoltageToValue v.1 v.2 = some b := by
  have hall : ∀ p ∈ inputVoltages, convertInputVoltageToValue p.2.1 p.2.2 = some p.1 := by decide
  exact hall _ (mem_of_lookup h)

theorem ofInt_toNat (b : UInt8) : UInt8.ofInt b.toNat = b := by
  have hb := b.toNat_lt
  rw [UInt8.ofInt, Int.emod_eq_of_lt (by omega) (by omega), Int.toNat_natCast, UInt8.ofNat_toNat]

/-- A byte of the output comes back as it was, except zero. -/
theorem outputByte_mul (b : UInt8) {scale : ℤ} (hscale : 0 < scale) :
    outputByte (b.toNat * scale) scale = if b = 0 then 1 else b := by
  rw [outputByte]
  by_cases hb : b = 0
  · subst hb
    simp [hscale.ne']
  · have hpos : (b.toNat : ℤ) * scale ≠ 0 := by
      refine mul_ne_zero ?_ hscale.ne'
      rw [Int.natCast_ne_zero]
      exact fun hzero => hb (UInt8.toNat_inj.mp hzero)
    rw [if_neg hpos, if_neg hb, Int.mul_tdiv_cancel _ hscale.ne', ofInt_toNat]

/-! ### Status and messages -/

/-- What the status says of the unit. -/
structure StatusSpec (unit : AnalogUnit) (status : RespGetStatus) : Prop where
  sendRate : convertSendRateToValue status.input.cfg.sendRate = some unit.sendRate
  inputVoltage : ∀ ch, convertInputVoltageToValue (status.input.cfg.vmin ch)
    (status.input.cfg.vmax ch) = some (unit.inputVoltage ch)
  waveformType : status.output.cfg.waveformType = unit.waveformType.toNat
  voltage : status.output.cfg.voltage = unit.outputVoltage.toNat * outputConvertScaleVoltage
  frequency : status.output.cfg.frequency = unit.frequency.toNat * outputConvertScaleFrequency

theorem AnalogUnit.byteAt_status (unit : AnalogUnit) (ch : Ch) :
    byteAt unit.status (1 + ch) = unit.inputVoltage ch := by
  fin_cases ch <;> rfl

theorem statusSpec_of_getStatus {unit : AnalogUnit} {status : RespGetStatus}
    (h : getStatus unit .ack = some status) : StatusSpec unit status := by
  simp only [getStatus, parseResponseGetStatus] at h
  have hlength : ¬ unit.status.length ≠ msgLengthToPayload cmdLengthResponseGetStatus :=
    not_not.mpr rfl
  rw [if_neg hlength] at h
  split at h
  case h_1 => cases h
  case h_2 rate hrate =>
    split at h
    case isTrue hranges =>
      cases h
      refine ⟨convertSendRateToValue_of_fromValue hrate, ?_, rfl, rfl, rfl⟩
      intro ch
      have hrange := hranges ch
      rw [unit.byteAt_status] at hrange
      obtain ⟨v, hv⟩ := Option.isSome_iff_exists.mp hrange
      simp only [unit.byteAt_status, hv, Option.getD_some]
      exact convertInputVoltageToValue_of_fromValue hv
    case isFalse => cases h

theorem map_eq_of_mapM {α β : Type} {f : α → Option β} {l : List α} {l' : List β}
    (h : l.mapM f = some l') : l.map f = l'.map some := by
  induction l generalizing l' with
  | nil =>
      cases h
      rfl
  | cons a l ih =>
      rw [List.mapM_cons] at h
      obtain ⟨b, hb, h⟩ := Option.bind_eq_some_iff.mp h
      obtain ⟨bs, hbs, h⟩ := Option.bind_eq_some_iff.mp h
      cases h
      simp [hb, ih hbs]

theorem byteAt_of_mapM {f : Ch → Option UInt8} {rate : UInt8} {voltages : List UInt8}
    (h : (List.finRange 8).mapM f = some voltages) (ch : Ch) :
    f ch = some (byteAt (rate :: voltages) (1 + ch)) := by
  have hmap := map_eq_of_mapM h
  have hlength : 8 = voltages.length := by simpa using congrArg List.length hmap
  have hlt : (ch : ℕ) < voltages.length := hlength ▸ ch.isLt
  have hch := congrArg (fun l => l[(ch : ℕ)]?) hmap
  have hfin : (List.finRange 8)[(ch : ℕ)]? = some ch := by simp
  simp only [List.getElem?_map, hfin, List.getElem?_eq_getElem hlt, Option.map_some,
    Option.some.injEq] at hch
  rw [hch, Nat.add_comm, byteAt_cons_succ, byteAt, List.getD_eq_getElem?_getD,
    List.getElem?_eq_getElem hlt, Option.getD_some]

/-- What a setting leaves in the unit. -/
def SendSpec (unit' : AnalogUnit) : Setting → Prop
  | .input cfg => convertSendRateToValue cfg.sendRate = some unit'.sendRate ∧
      ∀ ch, convertInputVoltageToValue (cfg.vmin ch) (cfg.vmax ch) = some (unit'.inputVoltage ch)
  | .output cfg => unit'.waveformType = UInt8.ofInt cfg.waveformType ∧
      unit'.outputVoltage = outputByte cfg.voltage outputConvertScaleVoltage ∧
      unit'.frequency = outputByte cfg.frequency outputConvertScaleFrequency
  | .control ctrl => unit'.outputStart = if ctrl.start then 1 else 0

theorem sendSpec_of_send {unit unit' : AnalogUnit} {setting : Setting}
    (h : setting.send unit = some unit') : SendSpec unit' setting := by
  cases setting with
  | input cfg =>
      obtain ⟨payload, hpack, rfl⟩ := Option.map_eq_some_iff.mp h
      simp only [packSetAnalogInput] at hpack
      split at hpack
      case h_1 => cases hpack
      case h_2 rate hrate =>
        obtain ⟨voltages, hvoltages, rfl⟩ := Option.map_eq_some_iff.mp hpack
        refine ⟨hrate, ?_⟩
        exact byteAt_of_mapM hvoltages
  | output cfg =>
      cases h
      exact ⟨rfl, rfl, rfl⟩
  | control ctrl =>
      cases h
      rfl

/-! ### One operation -/

variable {unit unit' sent : AnalogUnit} {op : Setter} {status : RespGetStatus} {setting : Setting}
  {a c : Attribute} {b : UInt8}

/-- An operation that finds its attribute in the unit has written it. -/
theorem held_of_change (hmodify : op.modify status = .ok setting)
    (hsend : setting.send unit = some sent) (hchange : op.change = some (a, b)) :
    sent.held a = b := by
  have hsent := sendSpec_of_send hsend
  cases op with
  | setInVoltRangeMode ch mode =>
      obtain ⟨voltage, hlookup, hpair⟩ := Option.map_eq_some_iff.mp hchange
      cases hpair
      simp only [Setter.modify, hlookup, Option.bind_some] at hmodify
      split at hmodify
      case h_1 vmin vmax hrange =>
        cases hmodify
        have hch := hsent.2 ch
        simp only [Function.update_self] at hch
        rw [convertInputVoltageToValue_of_fromValue hrange] at hch
        exact (Option.some.inj hch).symm
      case h_2 => cases hmodify
  | setInVoltSampFreqMode mode =>
      obtain ⟨sendRate, hbind, hpair⟩ := Option.map_eq_some_iff.mp hchange
      obtain ⟨rate, hlookup, hrate⟩ := Option.bind_eq_some_iff.mp hbind
      cases hpair
      simp only [Setter.modify, hlookup] at hmodify
      cases hmodify
      exact Option.some.inj (hsent.1.symm.trans hrate)
  | setOutVoltWaveformTypeMode mode =>
      obtain ⟨waveformType, hlookup, hpair⟩ := Option.map_eq_some_iff.mp hchange
      cases hpair
      simp only [Setter.modify, hlookup] at hmodify
      cases hmodify
      exact hsent.1
  | writeRaw val val2 mask =>
      cases mask with
      | raw =>
          cases hchange
          cases hmodify
          exact hsent.2.1
      | frequency =>
          cases hchange
          cases hmodify
          exact hsent.2.2
      | enable =>
          cases hchange
          cases hmodify
          simpa [SendSpec, AnalogUnit.held] using hsent
      | other => cases hchange

/-- The setting has for an attribute what the status said. -/
def Setting.Keeps (status : RespGetStatus) : Setting → Attribute → Prop
  | .input cfg, .inVoltRange ch =>
      cfg.vmin ch = status.input.cfg.vmin ch ∧ cfg.vmax ch = status.input.cfg.vmax ch
  | .input cfg, .inVoltSampFreq => cfg.sendRate = status.input.cfg.sendRate
  | .output cfg, .outVoltWaveformType => cfg.waveformType = status.output.cfg.waveformType
  | .output cfg, .outVoltRaw => cfg.voltage = status.output.cfg.voltage
  | .output cfg, .outVoltFrequency => cfg.frequency = status.output.cfg.frequency
  | _, _ => False

theorem keeps_of_modify (hmodify : op.modify status = .ok setting)
    (hchange : op.change = some (a, b)) (hca : c ≠ a) (hrecord : c.record = a.record) :
    setting.Keeps status c := by
  cases op with
  | setInVoltRangeMode ch mode =>
      obtain ⟨voltage, hlookup, hpair⟩ := Option.map_eq_some_iff.mp hchange
      cases hpair
      simp only [Setter.modify] at hmodify
      split at hmodify
      case h_1 =>
        cases hmodify
        cases c with
        | inVoltRange ch' =>
            have hch : ch' ≠ ch := by
              rintro rfl
              exact hca rfl
            exact ⟨Function.update_of_ne hch _ _, Function.update_of_ne hch _ _⟩
        | inVoltSampFreq => rfl
        | outVoltWaveformType | outVoltRaw | outVoltFrequency | outVoltEnable => cases hrecord
      case h_2 => cases hmodify
  | setInVoltSampFreqMode mode =>
      obtain ⟨sendRate, -, hpair⟩ := Option.map_eq_some_iff.mp hchange
      cases hpair
      simp only [Setter.modify] at hmodify
      split at hmodify
      case h_1 =>
        cases hmodify
        cases c with
        | inVoltRange ch => exact ⟨rfl, rfl⟩
        | inVoltSampFreq => exact absurd rfl hca
        | outVoltWaveformType | outVoltRaw | outVoltFrequency | outVoltEnable => cases hrecord
      case h_2 => cases hmodify
  | setOutVoltWaveformTypeMode mode =>
      obtain ⟨waveformType, -, hpair⟩ := Option.map_eq_some_iff.mp hchange
      cases hpair
      simp only [Setter.modify] at hmodify
      split at hmodify
      case h_1 =>
        cases hmodify
        cases c with
        | outVoltWaveformType => exact absurd rfl hca
        | outVoltRaw | outVoltFrequency => rfl
        | inVoltRange | inVoltSampFreq | outVoltEnable => cases hrecord
      case h_2 => cases hmodify
  | writeRaw val val2 mask =>
      cases mask with
      | raw =>
          cases hchange
          cases hmodify
          cases c with
          | outVoltRaw => exact absurd rfl hca
          | outVoltWaveformType | outVoltFrequency => rfl
          | inVoltRange | inVoltSampFreq | outVoltEnable => cases hrecord
      | frequency =>
          cases hchange
          cases hmodify
          cases c with
          | outVoltFrequency => exact absurd rfl hca
          | outVoltWaveformType | outVoltRaw => rfl
          | inVoltRange | inVoltSampFreq | outVoltEnable => cases hrecord
      | enable =>
          cases hchange
          cases c with
          | outVoltEnable => exact absurd rfl hca
          | inVoltRange | inVoltSampFreq | outVoltWaveformType | outVoltRaw | outVoltFrequency =>
              cases hrecord
      | other => cases hchange

/-- The other attributes of its record go back as the status had them. -/
theorem held_of_keeps (hstatus : StatusSpec unit status) (hsend : setting.send unit' = some sent)
    (hkeeps : setting.Keeps status c) : sent.held c = c.resent (unit.held c) := by
  have hsent := sendSpec_of_send hsend
  cases setting with
  | input cfg =>
      cases c with
      | inVoltRange ch =>
          have hch := hsent.2 ch
          rw [hkeeps.1, hkeeps.2, hstatus.inputVoltage] at hch
          exact (Option.some.inj hch).symm
      | inVoltSampFreq =>
          have hrate := hsent.1
          rw [hkeeps, hstatus.sendRate] at hrate
          exact (Option.some.inj hrate).symm
      | outVoltWaveformType | outVoltRaw | outVoltFrequency | outVoltEnable => cases hkeeps
  | output cfg =>
      cases c with
      | outVoltWaveformType =>
          have htype := hsent.1
          rw [hkeeps, hstatus.waveformType, ofInt_toNat] at htype
          exact htype
      | outVoltRaw =>
          have hvoltage := hsent.2.1
          rw [hkeeps, hstatus.voltage, outputByte_mul _ (by decide)] at hvoltage
          exact hvoltage
      | outVoltFrequency =>
          have hfrequency := hsent.2.2
          rw [hkeeps, hstatus.frequency, outputByte_mul _ (by decide)] at hfrequency
          exact hfrequency
      | inVoltRange | inVoltSampFreq | outVoltEnable => cases hkeeps
  | control ctrl => cases hkeeps

end Ep1Ag08a

end AptUsbtrx
