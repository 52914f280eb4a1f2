import AptUsbtrx.Shared.ByteOrder
import AptUsbtrx.Verification.Iio.Attributes

/-! # The settings of the analog unit in its status

What the four packers write against what the parser makes of the same bytes. -/

namespace AptUsbtrx

open Memory ByteOrder

namespace Ep1Ag08a

/-- The rate and the ranges are in the tables. -/
structure SetAnalogInput.Supported (param : SetAnalogInput) : Prop where
  sendRate : param.sendRate ∈ sendRates.map Prod.snd
  range : ∀ ch, (param.vmin ch, param.vmax ch) ∈ inputVoltages.map Prod.snd

/-- The values fit in one byte each. -/
structure SetAnalogOutput.Representable (param : SetAnalogOutput) : Prop where
  waveformType : 0 ≤ param.waveformType ∧ param.waveformType < 2 ^ 8
  voltage : 0 ≤ param.voltage ∧ param.voltage < 2 ^ 8 * outputConvertScaleVoltage
  frequency : 0 ≤ param.frequency ∧ param.frequency < 2 ^ 8 * outputConvertScaleFrequency

/-- Down to a multiple of 20 mV and of 1 Hz. -/
def SetAnalogOutput.quantised (param : SetAnalogOutput) : SetAnalogOutput :=
  { param with
    voltage := param.voltage / outputConvertScaleVoltage * outputConvertScaleVoltage
    frequency := param.frequency / outputConvertScaleFrequency * outputConvertScaleFrequency }

/-- A status with the bytes of the four messages. -/
def statusBytes (input : List UInt8) (inputCtrl : ControlAnalogInput) (output : SetAnalogOutput)
    (outputCtrl : ControlAnalogOutput) : List UInt8 :=
  input ++ packControlAnalogInput inputCtrl ++ packSetAnalogOutput output ++
    packControlAnalogOutput outputCtrl

variable {input : SetAnalogInput} {inputCtrl : ControlAnalogInput} {output : SetAnalogOutput}
  {outputCtrl : ControlAnalogOutput} {payload : List UInt8}

/-! ### The inputs -/

theorem isSome_find?_map {α β : Type} [DecidableEq β] (l : List (α × β)) (b : β) :
    ((l.find? fun p => p.2 = b).map Prod.fst).isSome ↔ b ∈ l.map Prod.snd := by
  rw [Option.isSome_map, List.find?_isSome]
  simp

theorem isSome_mapM {α β : Type} {f : α → Option β} {l : List α} :
    (l.mapM f).isSome ↔ ∀ a ∈ l, (f a).isSome := by
  induction l with
  | nil => simp
  | cons a l ih =>
      rw [List.mapM_cons, List.forall_mem_cons, ← ih]
      cases f a <;> cases l.mapM f <;> simp

/-- What is not in the tables is rejected. -/
theorem isSome_packSetAnalogInput_iff (input : SetAnalogInput) :
    (packSetAnalogInput input).isSome ↔ input.Supported := by
  have hrate : (convertSendRateToValue input.sendRate).isSome ↔
      input.sendRate ∈ sendRates.map Prod.snd := isSome_find?_map _ _
  have hrange (ch : Ch) : (convertInputVoltageToValue (input.vmin ch) (input.vmax ch)).isSome ↔
      (input.vmin ch, input.vmax ch) ∈ inputVoltages.map Prod.snd := isSome_find?_map _ _
  rw [packSetAnalogInput]
  cases hvalue : convertSendRateToValue input.sendRate with
  | none =>
      rw [hvalue] at hrate
      exact iff_of_false Bool.false_ne_true fun h => Bool.false_ne_true (hrate.mpr h.sendRate)
  | some rate =>
      rw [hvalue] at hrate
      rw [Option.isSome_map, isSome_mapM]
      constructor
      · intro h
        exact ⟨hrate.mp rfl, fun ch => (hrange ch).mp (h ch (List.mem_finRange ch))⟩
      · intro h ch _
        exact (hrange ch).mpr (h.range ch)

theorem convertSendRateFromValue_of_toValue {rate : ℤ} {b : UInt8}
    (h : convertSendRateToValue rate = some b) : convertSendRateFromValue b = some rate := by
  have hall : ∀ p ∈ sendRates, convertSendRateFromValue p.1 = some p.2 := by decide
  obtain ⟨p, hfind, rfl⟩ := Option.map_eq_some_iff.mp h
  have hrate := List.find?_some hfind
  rw [hall p (List.mem_of_find?_eq_some hfind), of_decide_eq_true hrate]

theorem convertInputVoltageFromValue_of_toValue {vmin vmax : ℤ} {b : UInt8}
    (h : convertInputVoltageToValue vmin vmax = some b) :
    convertInputVoltageFromValue b = some (vmin, vmax) := by
  have hall : ∀ p ∈ inputVoltages, convertInputVoltageFromValue p.1 = some p.2 := by decide
  obtain ⟨p, hfind, rfl⟩ := Option.map_eq_some_iff.mp h
  have hrange := List.find?_some hfind
  rw [hall p (List.mem_of_find?_eq_some hfind), of_decide_eq_true hrange]

/-- The payload of an input that is accepted, byte by byte. -/
structure InputBytes (input : SetAnalogInput) (payload : List UInt8) : Prop where
  length : payload.length = 9
  sendRate : convertSendRateFromValue (byteAt payload 0) = some input.sendRate
  range : ∀ ch : Ch, convertInputVoltageFromValue (byteAt payload (1 + ch)) =
    some (input.vmin ch, input.vmax ch)

theorem inputBytes_of_pack (h : packSetAnalogInput input = some payload) :
    InputBytes input payload := by
  rw [packSetAnalogInput] at h
  cases hrate : convertSendRateToValue input.sendRate with
  | none =>
      rw [hrate] at h
      cases h
  | some rate =>
      rw [hrate] at h
      obtain ⟨voltages, hvoltages, rfl⟩ := Option.map_eq_some_iff.mp h
      have hlength := congrArg List.length (map_eq_of_mapM hvoltages)
      rw [List.length_map, List.length_map, List.length_finRange] at hlength
      refine ⟨?_, convertSendRateFromValue_of_toValue hrate, fun ch => ?_⟩
      · rw [List.length_cons, ← hlength]
      · exact convertInputVoltageFromValue_of_toValue (byteAt_of_mapM hvoltages ch)

/-- The flags of the channels that have been through the loop. -/
theorem testBit_startFlags (start : Ch → Bool) (l : List Ch) (data : UInt8) (ch : Ch) :
    (l.foldl (fun data i => if start i then data ||| UInt8.ofNat (1 <<< (i : ℕ)) else data)
      data).toNat.testBit ch = (data.toNat.testBit ch || start ch && decide (ch ∈ l)) := by
  have hbit : ∀ i ch : Ch, (UInt8.ofNat (1 <<< (i : ℕ))).toNat.testBit ch = decide (ch = i) := by
    decide
  induction l generalizing data with
  | nil => simp
  | cons i l ih =>
      rw [List.foldl_cons, ih]
      cases hi : start i with
      | false =>
          by_cases hch : ch = i
          · subst hch
            simp [hi]
          · simp [hch]
      | true =>
          rw [if_pos rfl, UInt8.toNat_or, Nat.testBit_or, hbit]
          by_cases hch : ch = i
          · subst hch
            simp [hi]
          · simp [hch]

theorem testBit_packControlAnalogInput (param : ControlAnalogInput) (ch : Ch) :
    (byteAt (packControlAnalogInput param) 0).toNat.testBit ch = param.start ch := by
  have hflags := testBit_startFlags param.start (List.finRange 8) 0 ch
  rwa [decide_eq_true (List.mem_finRange ch), Bool.and_true, UInt8.toNat_zero, Nat.zero_testBit,
    Bool.false_or] at hflags

/-! ### The whole status -/

/-- The values of an output that its three bytes stand for. -/
def SetAnalogOutput.stored (param : SetAnalogOutput) : SetAnalogOutput where
  waveformType := param.waveformType % 2 ^ 8
  voltage := param.voltage.tdiv outputConvertScaleVoltage % 2 ^ 8 * outputConvertScaleVoltage
  frequency := param.frequency.tdiv outputConvertScaleFrequency % 2 ^ 8 * outputConvertScaleFrequency

theorem byteAt_statusBytes_input (h : payload.length = 9) {n : ℕ} (hn : n < 9) :
    byteAt (statusBytes payload inputCtrl output outputCtrl) n = byteAt payload n := by
  rw [statusBytes, List.append_assoc, List.append_assoc]
  exact byteAt_append_left _ (h ▸ hn)

theorem byteAt_statusBytes (h : payload.length = 9) (n : ℕ) :
    byteAt (statusBytes payload inputCtrl output outputCtrl) (9 + n) =
      byteAt (packControlAnalogInput inputCtrl ++ packSetAnalogOutput output ++
        packControlAnalogOutput outputCtrl) n := by
  rw [← byteAt_drop, statusBytes, List.append_assoc, List.append_assoc, List.drop_left' h,
    List.append_assoc]

theorem parse_statusBytes (h : packSetAnalogInput input = some payload) :
    parseResponseGetStatus (statusBytes payload inputCtrl output outputCtrl)
        (msgLengthToPayload cmdLengthResponseGetStatus) =
      some ⟨⟨input, inputCtrl⟩, ⟨output.workaround.stored, outputCtrl⟩⟩ := by
  have hinput := inputBytes_of_pack h
  generalize hdata : statusBytes payload inputCtrl output outputCtrl = data
  have htail (n : ℕ) : byteAt data (9 + n) = byteAt (packControlAnalogInput inputCtrl ++
      packSetAnalogOutput output ++ packControlAnalogOutput outputCtrl) n :=
    hdata ▸ byteAt_statusBytes hinput.length n
  have hrate : convertSendRateFromValue (byteAt data 0) = some input.sendRate := by
    rw [← hdata, byteAt_statusBytes_input hinput.length (by decide), hinput.sendRate]
  have hrange (ch : Ch) : convertInputVoltageFromValue (byteAt data (1 + ch)) =
      some (input.vmin ch, input.vmax ch) := by
    rw [← hdata, byteAt_statusBytes_input hinput.length (by omega), hinput.range]
  have hstart (ch : Ch) : (byteAt data 9).toNat.testBit ch = inputCtrl.start ch :=
    (congrArg (fun b => b.toNat.testBit ch) (htail 0)).trans
      (testBit_packControlAnalogInput inputCtrl ch)
  have houtputStart : (byteAt data 13).toNat.testBit 0 = outputCtrl.start := by
    rw [htail 4]
    change (if outputCtrl.start then 0x01 else 0x00 : UInt8).toNat.testBit 0 = outputCtrl.start
    cases outputCtrl.start <;> rfl
  have hwaveformType : ((byteAt data 10).toNat : ℤ) = output.workaround.waveformType % 2 ^ 8 := by
    rw [htail 1]
    exact natCast_toNat_ofInt _
  have hvoltage : ((byteAt data 11).toNat : ℤ) =
      output.workaround.voltage.tdiv outputConvertScaleVoltage % 2 ^ 8 := by
    rw [htail 2]
    exact natCast_toNat_ofInt _
  have hfrequency : ((byteAt data 12).toNat : ℤ) =
      output.workaround.frequency.tdiv outputConvertScaleFrequency % 2 ^ 8 := by
    rw [htail 3]
    exact natCast_toNat_ofInt _
  simp only [parseResponseGetStatus, hrate, hrange, hstart, houtputStart, hwaveformType, hvoltage,
    hfrequency, Option.isSome_some, implies_true, if_true, Option.getD_some, ne_eq, not_true_eq_false,
    if_false, SetAnalogOutput.stored]

/-- What fits in the bytes comes back, down to the resolution. -/
theorem stored_eq_quantised (h : output.Representable) :
    output.workaround.stored = output.workaround.quantised := by
  have hscaled {x scale : ℤ} (hscale : 0 < scale) (hx : 0 ≤ x ∧ x < 2 ^ 8 * scale) :
      x.tdiv scale % 2 ^ 8 * scale = x / scale * scale := by
    rw [Int.tdiv_eq_ediv_of_nonneg hx.1, Int.emod_eq_of_lt (Int.ediv_nonneg hx.1 hscale.le)
      (Int.ediv_lt_of_lt_mul hscale hx.2)]
  have hvoltage : 0 ≤ output.workaround.voltage ∧
      output.workaround.voltage < 2 ^ 8 * outputConvertScaleVoltage := by
    rw [SetAnalogOutput.workaround]
    dsimp only
    split
    · decide
    · exact h.voltage
  have hfrequency : 0 ≤ output.workaround.frequency ∧
      output.workaround.frequency < 2 ^ 8 * outputConvertScaleFrequency := by
    rw [SetAnalogOutput.workaround]
    dsimp only
    split
    · decide
    · exact h.frequency
  rw [SetAnalogOutput.stored, SetAnalogOutput.quantised, SetAnalogOutput.mk.injEq]
  exact ⟨Int.emod_eq_of_lt h.waveformType.1 h.waveformType.2, hscaled (by decide) hvoltage,
    hscaled (by decide) hfrequency⟩

/-- Settings that the packers accept come back, with the zeros of the output replaced and the rest
down to the resolution; inputs that are not in the tables are rejected. -/
theorem analogSettings_roundTrip (input : SetAnalogInput) (inputCtrl : ControlAnalogInput)
    (outputCtrl : ControlAnalogOutput) {output : SetAnalogOutput} (h : output.Representable) :
    (input.Supported → ∃ payload, packSetAnalogInput input = some payload ∧
      parseResponseGetStatus (statusBytes payload inputCtrl output outputCtrl)
          (msgLengthToPayload cmdLengthResponseGetStatus) =
        some ⟨⟨input, inputCtrl⟩, ⟨output.workaround.quantised, outputCtrl⟩⟩) ∧
      (¬ input.Supported → packSetAnalogInput input = none) := by
  rw [← isSome_packSetAnalogInput_iff]
  constructor
  · intro hsome
    obtain ⟨payload, hpack⟩ := Option.isSome_iff_exists.mp hsome
    exact ⟨payload, hpack, by rw [parse_statusBytes hpack, stored_eq_quantised h]⟩
  · intro hnone
    exact Option.not_isSome_iff_eq_none.mp hnone

/-- A sine of 5 V and 100 Hz. -/
theorem analogSettings_roundTrip_sine :
    ∃ payload, packSetAnalogInput ⟨10000000, fun _ => -5000, fun _ => 5000⟩ = some payload ∧
      parseResponseGetStatus (statusBytes payload ⟨fun ch => ch = 3⟩ ⟨1, 5000, 100000⟩ ⟨true⟩)
          (msgLengthToPayload cmdLengthResponseGetStatus) =
        some ⟨⟨⟨10000000, fun _ => -5000, fun _ => 5000⟩, ⟨fun ch => ch = 3⟩⟩,
          ⟨⟨1, 5000, 100000⟩, ⟨true⟩⟩⟩ :=
  (analogSettings_roundTrip ⟨10000000, fun _ => -5000, fun _ => 5000⟩ ⟨fun ch => ch = 3⟩ ⟨true⟩
    ⟨by decide, by decide, by decide⟩).1 ⟨by decide, by decide⟩

/-- A voltage of zero is accepted and comes back as 20 mV. -/
theorem not_quantised_zero :
    ∃ payload, packSetAnalogInput ⟨10000000, fun _ => -5000, fun _ => 5000⟩ = some payload ∧
      parseResponseGetStatus (statusBytes payload ⟨fun _ => true⟩ ⟨0, 0, 1000⟩ ⟨true⟩)
          (msgLengthToPayload cmdLengthResponseGetStatus) ≠
        some ⟨⟨⟨10000000, fun _ => -5000, fun _ => 5000⟩, ⟨fun _ => true⟩⟩,
          ⟨SetAnalogOutput.quantised ⟨0, 0, 1000⟩, ⟨true⟩⟩⟩ := by
  refine ⟨[0x01, 0x01, 0x01, 0x01, 0x01, 0x01, 0x01, 0x01, 0x01], by decide, fun h => ?_⟩
  exact absurd (congrArg (Option.map (·.output.cfg.voltage)) h) (by decide)

end Ep1Ag08a

end AptUsbtrx
