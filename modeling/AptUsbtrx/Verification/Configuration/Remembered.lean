import AptUsbtrx.Verification.Configuration.Runs

/-! # What the driver remembers and what the unit holds

The driver keeps the CAN clock and both bit timings, and sysfs shows what it keeps. -/

namespace AptUsbtrx

open Memory Word32 Execution

namespace Ep1Cf02a

open ConfigSystem (SetsOnly)

/-! ### The copies of the driver -/

namespace ConfigSystem

variable {κ : Type} {firmware : Firmware κ} {s t : ConfigSystem κ} {limits : Limits}
  {timing : BitTiming} {x : Exchange}

/-- What the driver keeps is what the unit reports, and whatever it may come to report. -/
structure Coherent (firmware : Firmware κ) (s : ConfigSystem κ) : Prop where
  timing : ∀ view ∈ s.Possible firmware, ∀ limits,
    s.dev.uniqueData.timing limits = view.timing limits
  canClock : ∀ view ∈ s.Possible firmware, s.dev.uniqueData.canClock = ofInt view.clock

/-- Every request for a bit timing that the unit may have got was answered to its call. -/
def Seen (s : ConfigSystem κ) : Prop :=
  ∀ handover ∈ s.log, ∀ limits : Limits, handover.cmdId = limits.setting.command.reqCmdId →
    handover.answered = true

theorem Seen.of_log (h : t.Seen) (hlog : s.log <+: t.log) : s.Seen :=
  fun handover hmem => h handover (hlog.subset hmem)

theorem timing_setTiming_self (uniqueData : UniqueData) :
    (uniqueData.setTiming timing limits).timing limits = timing := setTiming_timing uniqueData

theorem timing_setTiming_of_ne {other : Limits} (uniqueData : UniqueData) (h : other ≠ limits) :
    (uniqueData.setTiming timing limits).timing other = uniqueData.timing other := by
  cases limits <;> cases other <;> first | rfl | exact absurd rfl h

theorem canClock_setTiming (uniqueData : UniqueData) :
    (uniqueData.setTiming timing limits).canClock = uniqueData.canClock := by
  cases limits <;> rfl

theorem setting_ne {other : Limits} (h : other ≠ limits) : other.setting ≠ limits.setting := by
  cases limits <;> cases other <;> first | decide | exact absurd rfl h

/-- Calls that set no bit timing and leave the copies alone. -/
theorem Coherent.of_setsOnly {touched : Set Setting} (h : s.Coherent firmware)
    (honly : SetsOnly firmware s t touched) (htouched : ∀ limits : Limits, limits.setting ∉ touched)
    (htiming : ∀ limits, t.dev.uniqueData.timing limits = s.dev.uniqueData.timing limits)
    (hclock : t.dev.uniqueData.canClock = s.dev.uniqueData.canClock) : t.Coherent firmware := by
  have hsame {view old : View} (hold : ∀ r : Readable, r.Kept →
      (∀ setting ∈ touched, r ≠ .value setting) → view r = old r) (limits : Limits) :
      view.timing limits = old.timing limits :=
    congrArg parseResponseGetBitTiming (hold _ (Setting.kept_timing limits)
      fun setting hmem heq => htouched limits (Readable.value.inj heq ▸ hmem))
  refine ⟨fun view hview limits => ?_, fun view hview => ?_⟩
  · obtain ⟨old, hold, hkept⟩ := honly.view view hview
    rw [htiming, hsame hkept]
    exact h.timing old hold limits
  · obtain ⟨old, hold, hkept⟩ := honly.view view hview
    have hview : view .canClock = old .canClock :=
      hkept .canClock trivial fun _ _ heq => Readable.noConfusion heq
    rw [hclock, View.clock, hview]
    exact h.canClock old hold

theorem canClock_update (out : ℤ) (uniqueData : UniqueData) :
    (GetCmd.canClock.update out uniqueData).canClock = ofInt out := rfl

/-- A get function leaves the unit alone, and what it reads is what the driver keeps. -/
theorem Coherent.get (h : s.Coherent firmware) (hconforms : firmware.Conforms) (hs : s.Wf)
    (x : Exchange) (r : Readable) (hfresh : (s.get firmware x r).2.Fresh) :
    (s.get firmware x r).2.Coherent firmware := by
  have heffect := getEffect_get hconforms hs x r
  generalize s.get firmware x r = called at heffect hfresh ⊢
  obtain ⟨output, t⟩ := called
  dsimp only at heffect hfresh ⊢
  have hdata := heffect.uniqueData
  have honly : SetsOnly firmware s t ∅ := heffect.setsOnly
  have hkeeps (htiming : ∀ limits, t.dev.uniqueData.timing limits = s.dev.uniqueData.timing limits)
      (hclock : t.dev.uniqueData.canClock = s.dev.uniqueData.canClock) : t.Coherent firmware :=
    h.of_setsOnly honly (fun _ => Set.notMem_empty _) htiming hclock
  have hsame (hupdate : t.dev.uniqueData = s.dev.uniqueData) : t.Coherent firmware :=
    hkeeps (fun limits => by rw [hupdate]) (by rw [hupdate])
  cases output with
  | none => exact hsame hdata
  | some out =>
      cases r with
      | canClock =>
          obtain ⟨view, hview, hout⟩ := heffect.exists_view hfresh trivial rfl
          refine hkeeps (fun limits => ?_) ?_
          · rw [hdata]
            cases limits <;> rfl
          · rw [hdata, h.canClock view hview, View.clock]
            exact (canClock_update out _).trans (congrArg ofInt hout)
      | resetTime | storeDataState => exact hsame hdata
      | value setting =>
          cases setting with
          | bitTiming =>
              obtain ⟨view, hview, hout⟩ := heffect.exists_view hfresh trivial rfl
              refine hkeeps (fun limits => ?_) (by rw [hdata]; rfl)
              rw [hdata]
              cases limits with
              | nominal => exact hout.trans (h.timing view hview .nominal).symm
              | data => rfl
          | dataBitTiming =>
              obtain ⟨view, hview, hout⟩ := heffect.exists_view hfresh trivial rfl
              refine hkeeps (fun limits => ?_) (by rw [hdata]; rfl)
              rw [hdata]
              cases limits with
              | nominal => rfl
              | data => exact hout.trans (h.timing view hview .data).symm
          | silentMode | fdMode | isoMode | txRxControl | rtcTime | storeDataRxControl |
              storeEnable | storeMaxDuration => exact hsame hdata

/-- A bit timing that is not cut is kept when it is carried out, and what is refused is not kept. -/
theorem Coherent.setTiming (h : s.Coherent firmware) (hconforms : firmware.Conforms) (hs : s.Wf)
    (htrips : checkBitTiming limits.const timing = 0 → RoundTrips timing)
    (hfresh : (s.setTiming firmware x limits timing).2.Fresh)
    (hseen : (s.setTiming firmware x limits timing).2.Seen) :
    (s.setTiming firmware x limits timing).2.Coherent firmware := by
  rcases setTiming_cases hconforms hs x limits timing with
    ⟨-, hrefused⟩ | ⟨haccept, heffect, hkept⟩
  · rw [hrefused]
    exact h
  generalize s.setTiming firmware x limits timing = called at heffect hkept hfresh hseen ⊢
  obtain ⟨ok, t⟩ := called
  dsimp only at heffect hkept hfresh hseen ⊢
  cases ok with
  | true =>
      rw [if_pos rfl] at hkept
      refine ⟨fun view hview other => ?_, fun view hview => ?_⟩
      · obtain ⟨old, hold, rfl⟩ :=
          heffect.view_of_done hfresh (Setting.kept_timing limits) rfl hview
        rw [hkept]
        by_cases hother : other = limits
        · subst hother
          rw [timing_setTiming_self, View.timing, View.store_self]
          exact (htrips haccept).symm
        · rw [timing_setTiming_of_ne _ hother, View.timing_store_of_ne (setting_ne hother)]
          exact h.timing old hold other
      · obtain ⟨old, hold, rfl⟩ :=
          heffect.view_of_done hfresh (Setting.kept_timing limits) rfl hview
        rw [hkept, canClock_setTiming, View.clock_store]
        exact h.canClock old hold
  | false =>
      rw [if_neg Bool.false_ne_true] at hkept
      have hanswered :
          t.log ≠ s.log ++ [⟨limits.setting.command.reqCmdId, false, false⟩] := by
        intro hlog
        have hmem : (⟨limits.setting.command.reqCmdId, false, false⟩ : Handover) ∈ t.log := by
          rw [hlog]
          exact List.mem_append_right _ List.mem_cons_self
        exact Bool.false_ne_true (hseen _ hmem limits rfl)
      have hsame {view : View} (hview : view ∈ t.Possible firmware) :
          view ∈ s.Possible firmware :=
        heffect.view_of_refused hfresh (Setting.kept_timing limits) rfl hanswered hview
      exact ⟨fun view hview other => hkept ▸ h.timing view (hsame hview) other,
        fun view hview => hkept ▸ h.canClock view (hsame hview)⟩

end ConfigSystem

/-- A bit timing that the call sets fits the message. -/
def Setting.Uncut : (setting : Setting) → setting.Value → Prop
  | .bitTiming, timing | .dataBitTiming, timing =>
      timing.IsInts ∧ 0 ≤ timing.propSeg ∧ 0 ≤ timing.phaseSeg1
  | _, _ => True

/-- The script sets no bit timing that it is given. -/
def StartStep.Uncut : StartStep → Prop
  | set _ setting v => setting.Uncut v
  | _ => True

theorem roundTrips_of_uncut {limits : Limits} {timing : BitTiming}
    (h : timing.IsInts ∧ 0 ≤ timing.propSeg ∧ 0 ≤ timing.phaseSeg1)
    (haccept : checkBitTiming limits.const timing = 0) : RoundTrips timing := by
  rw [roundTrips_iff, inRange_iff h.1 haccept]
  exact h.2

namespace ConfigSystem

variable {κ : Type} {firmware : Firmware κ} {s t : ConfigSystem κ} {limits : Limits}

theorem Coherent.set (h : s.Coherent firmware) (hconforms : firmware.Conforms) (hs : s.Wf)
    {x : Exchange} {setting : Setting} {v : setting.Value} (hv : setting.Uncut v)
    (hfresh : (s.set firmware x setting v).2.Fresh)
    (hseen : (s.set firmware x setting v).2.Seen) :
    (s.set firmware x setting v).2.Coherent firmware := by
  cases setting with
  | bitTiming => exact Coherent.setTiming h hconforms hs (roundTrips_of_uncut hv) hfresh hseen
  | dataBitTiming => exact Coherent.setTiming h hconforms hs (roundTrips_of_uncut hv) hfresh hseen
  | silentMode | fdMode | isoMode | txRxControl | rtcTime | storeDataRxControl | storeEnable |
      storeMaxDuration =>
      obtain ⟨payload, -, heffect, hkept⟩ := setEffect_setCommand hconforms hs x _ _
      refine h.of_setsOnly heffect.setsOnly (fun limits => ?_) (fun limits => ?_) ?_
      · cases limits <;> exact fun hmem => absurd (Set.mem_singleton_iff.mp hmem) (by decide)
      · exact congrArg (fun data : UniqueData => data.timing limits) hkept
      · exact congrArg UniqueData.canClock hkept

/-- The timing that is set for a bit rate is calculated, so it is never cut. -/
theorem Coherent.ioctlSetBitrate (h : s.Coherent firmware) (hconforms : firmware.Conforms)
    (hs : s.Wf) {clock timing : Exchange} {bitrate samplePoint ret : ℤ}
    (hcall : s.ioctlSetBitrate firmware clock timing limits bitrate samplePoint = some (ret, t))
    (hfresh : t.Fresh) (hseen : t.Seen) : t.Coherent firmware := by
  have hget := getEffect_get hconforms hs clock .canClock
  rcases ioctlSetBitrate_cases hcall with ⟨-, rfl⟩ | ⟨_, bitTiming, -, hcalc, rfl, -⟩
  · exact h.get hconforms hs clock .canClock hfresh
  · have hlog := (setEffect_setTiming hconforms hget.wf timing limits bitTiming).log_grows
    have hclock := h.get hconforms hs clock .canClock (hfresh.of_log hlog)
    exact Coherent.setTiming hclock hconforms hget.wf (roundTrips_of_calcBitTiming hcalc) hfresh
      hseen

theorem Coherent.getTiming (h : s.Coherent firmware) (hconforms : firmware.Conforms) (hs : s.Wf)
    (x : Exchange) (limits : Limits) (hfresh : (s.getTiming firmware x limits).2.Fresh) :
    (s.getTiming firmware x limits).2.Coherent firmware := by
  cases limits with
  | nominal => exact h.get hconforms hs x (.value .bitTiming) hfresh
  | data => exact h.get hconforms hs x (.value .dataBitTiming) hfresh

theorem Coherent.ioctlGetBitrate (h : s.Coherent firmware) (hconforms : firmware.Conforms)
    (hs : s.Wf) {timing clock : Exchange} {result : Except ℤ (ℤ × ℤ)}
    (hcall : s.ioctlGetBitrate firmware timing clock limits = some (result, t))
    (hfresh : t.Fresh) : t.Coherent firmware := by
  rcases ioctlGetBitrate_cases hcall with rfl | rfl
  · exact h.getTiming hconforms hs timing limits hfresh
  · have honly : SetsOnly firmware s (s.getTiming firmware timing limits).2 ∅ :=
      setsOnly_getTiming hconforms hs timing limits
    have hlog := (getEffect_get hconforms honly.wf clock .canClock).log_grows
    exact (h.getTiming hconforms hs timing limits (hfresh.of_log hlog)).get hconforms honly.wf
      clock .canClock hfresh

/-! ### The probe -/

theorem Coherent.startStep {candev : Candev} {xs : StartExchanges} {i : StartStep} {ok : Bool}
    (h : s.Coherent firmware) (hconforms : firmware.Conforms) (hs : s.Wf) (hi : i.Uncut)
    (hstep : startStep firmware candev xs s i = some (ok, t)) (hfresh : t.Fresh) (hseen : t.Seen) :
    t.Coherent firmware := by
  cases i with
  | bittiming limits =>
      obtain ⟨⟨ret, u⟩, hset, hpair⟩ := Option.map_eq_some_iff.mp hstep
      cases hpair
      exact h.ioctlSetBitrate hconforms hs hset hfresh hseen
  | set x setting v =>
      have hset := h.set (x := x) hconforms hs hi
      rw [show s.set firmware x setting v = (ok, t) from Option.some.inj hstep] at hset
      exact hset hfresh hseen
  | resetTime =>
      cases hstep
      exact h.get hconforms hs xs.resetTime .resetTime hfresh

theorem startSteps_uncut {candev : Candev} {xs : StartExchanges} :
    ∀ i ∈ startSteps candev xs, i.Uncut := by
  rw [startSteps_eq]
  intro i hi
  rcases List.mem_append.mp hi with hi | hi
  · exact forall_configSteps.mpr ⟨trivial, fun _ => trivial, trivial, trivial, fun _ => trivial,
      trivial⟩ i hi
  · rw [List.mem_singleton.mp hi]
    exact trivial

theorem Coherent.netdevStart {candev : Candev} {xs : StartExchanges} {ok : Bool}
    (h : s.Coherent firmware) (hconforms : firmware.Conforms) (hs : s.Wf)
    (hstart : s.netdevStart firmware candev xs = some (ok, t)) (hfresh : t.Fresh)
    (hseen : t.Seen) : t.Coherent firmware := by
  have hinv := Script.run_invariant
    (I := fun u : ConfigSystem κ => u.Wf ∧ (u.Fresh → u.Seen → u.Coherent firmware))
    (fun i hi u ok v hu hstep => by
      have honly := setsOnly_startStep hconforms hu.1 hstep
      refine ⟨honly.wf, fun hfresh hseen => ?_⟩
      exact (hu.2 (honly.fresh hfresh) (hseen.of_log honly.log)).startStep hconforms hu.1
        (startSteps_uncut i hi) hstep hfresh hseen)
    ⟨hs, fun _ _ => h⟩ hstart
  exact hinv.2 hfresh hseen

end ConfigSystem

/-! ### Runs -/

/-- A bit timing that the call is given is not cut. -/
def ConfigCall.Uncut : ConfigCall → Prop
  | .ioctlSet _ setting v => setting.Uncut v
  | _ => True

namespace ConfigCalls

variable {κ : Type} {firmware : Firmware κ} {s t : ConfigCalls κ} {call : ConfigCall}

instance (s : ConfigSystem RegisterUnit) : Decidable s.Seen :=
  decidable_of_iff (∀ handover ∈ s.log, (handover.cmdId = cmdSetBitTiming ∨
    handover.cmdId = cmdSetDataBitTiming) → handover.answered = true) <| by
    refine forall₂_congr fun handover _ => ⟨fun h limits hid => h ?_, fun h hid => ?_⟩
    · cases limits with
      | nominal => exact .inl hid
      | data => exact .inr hid
    · rcases hid with hid | hid
      · exact h .nominal hid
      · exact h .data hid

end ConfigCalls

end Ep1Cf02a

end AptUsbtrx
