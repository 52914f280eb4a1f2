import AptUsbtrx.Verification.BitTiming.Conversions
import AptUsbtrx.Verification.Configuration.Views

/-! # Bringing the interface up

What `ep1_cf02a_netdev_start` leaves in the unit, wherever it ends. -/

namespace AptUsbtrx

open Memory Word32

namespace Ep1Cf02a

/-! ### Calculated timings -/

section

variable {limits : Limits} {clock bitrate samplePoint : ℤ} {timing : BitTiming}

theorem isInts_bitTimingOf (bt : CanBittiming) : (bitTimingOf bt).IsInts := by
  rw [bitTimingOf]
  constructor
  all_goals
    dsimp only
    exact isInt_wrap _

theorem chosen_of_calcBitTiming
    (h : calcBitTiming (some clock) bitrate samplePoint limits.const = some (some timing)) :
    ∃ v r, Chosen limits (ofInt clock) (ofInt bitrate)
        (samplePointNominal (request (ofInt bitrate) (ofInt samplePoint))) v r ∧
      timing = bitTimingOf (calculated (ofInt clock)
        (prescaler (ofInt clock) (ofInt bitrate) v) (v / 2) r) := by
  obtain ⟨bt, hcalc, rfl⟩ := (calcBitTiming_eq_some_iff _ _ _ _ _).mp h
  have hzero : ¬ ZeroProduct limits (ofInt bitrate) := by
    intro hzero
    rw [(canCalcBittiming_eq_none_iff (ofInt_lt clock) (ofInt_lt _)).mpr (.inl hzero)] at hcalc
    cases hcalc
  obtain ⟨v, r, hchosen, rfl⟩ := canCalcBittiming_eq_ok (ofInt_lt clock) (ofInt_lt _) hzero hcalc
  exact ⟨v, r, hchosen, rfl⟩

/-- A calculated timing that passes the check fits into the fields of the message. -/
theorem roundTrips_of_calcBitTiming
    (h : calcBitTiming (some clock) bitrate samplePoint limits.const = some (some timing))
    (haccept : checkBitTiming limits.const timing = 0) : RoundTrips timing := by
  obtain ⟨v, r, hchosen, rfl⟩ := chosen_of_calcBitTiming h
  rw [roundTrips_iff, inRange_iff (isInts_bitTimingOf _) haccept, bitTimingOf, calculated]
  have hmax := limits.tseg2Max_bounds
  have htseg1 : r.tseg1 ≤ 2 * limits.const.tseg2Max := by
    rcases hchosen.accepts.cases hchosen.inRange.half_le with hin | hwrapped
    · exact hin.tseg1_le
    · exact Nat.le_of_eq hwrapped.tseg1_eq
  dsimp only
  rw [wrap_natCast (by omega), wrap_natCast (by omega)]
  omega

end

/-! ### The configuration in the unit -/

namespace View

/-- The unit holds the timing that is calculated for the bit rate at its clock. -/
def Realises (view : View) (limits : Limits) (rate : ℕ × ℕ) : Prop :=
  calcBitTiming (some view.clock) rate.1 rate.2 limits.const = some (some (view.timing limits))

/-- The unit sends and receives. -/
def Started (view : View) : Prop := view.value .txRxControl = true

instance (view : View) : Decidable view.Started :=
  instDecidableEqBool (view.value .txRxControl) true

end View

/-- The unit is configured as the interface asks for. -/
structure Candev.Applied (candev : Candev) (view : View) : Prop where
  silentMode : view.value .silentMode = (candev.ctrlmode &&& canCtrlmodeListenonly != 0 : Bool)
  fdMode : view.value .fdMode = candev.fd
  isoMode : candev.fd = true →
    view.value .isoMode = (candev.ctrlmode &&& canCtrlmodeFdNonIso != 0 : Bool)
  bittiming : view.Realises .nominal (candev.rate .nominal)
  dataBittiming : candev.fd = true → view.Realises .data (candev.rate .data)

/-- The configuration does not say whether the unit sends and receives. -/
theorem Candev.Applied.store {candev : Candev} {view : View} (h : candev.Applied view)
    (payload : List UInt8) : candev.Applied (view.store .txRxControl payload) where
  silentMode := (View.value_store_of_ne (by decide)).trans h.silentMode
  fdMode := (View.value_store_of_ne (by decide)).trans h.fdMode
  isoMode hfd := (View.value_store_of_ne (by decide)).trans (h.isoMode hfd)
  bittiming := by
    rw [View.Realises, View.clock_store, View.timing_store_of_ne (by decide)]
    exact h.bittiming
  dataBittiming hfd := by
    rw [View.Realises, View.clock_store, View.timing_store_of_ne (by decide)]
    exact h.dataBittiming hfd

namespace StartStep

/-- The setting that the call sets. -/
def changes : StartStep → Set Setting
  | bittiming limits => {limits.setting}
  | set _ setting _ => {setting}
  | resetTime => ∅

/-- The value fits into the payload and stays as it is set. -/
def Packs : StartStep → Prop
  | set _ setting v => setting.InRange v ∧ (Readable.value setting).Kept
  | _ => True

/-- What the call is for. -/
def Holds (candev : Candev) (view : View) : StartStep → Prop
  | bittiming limits => view.Realises limits (candev.rate limits)
  | set _ setting v => view.value setting = v
  | resetTime => True

end StartStep

namespace ConfigSystem

variable {κ : Type} {firmware : Firmware κ} {s t : ConfigSystem κ} {limits : Limits} {ret : ℤ}
  {view : View}

/-- A bit rate is given up before its timing is sent, or the timing is set. -/
theorem ioctlSetBitrate_cases {clock timing : Exchange} {bitrate samplePoint : ℤ}
    (h : s.ioctlSetBitrate firmware clock timing limits bitrate samplePoint = some (ret, t)) :
    ret ≠ 0 ∧ t = (s.getCanClock firmware clock).2 ∨
      ∃ canClock bitTiming, (s.getCanClock firmware clock).1 = some canClock ∧
        calcBitTiming (some canClock) bitrate samplePoint limits.const = some (some bitTiming) ∧
        t = ((s.getCanClock firmware clock).2.setTiming firmware timing limits bitTiming).2 ∧
        (ret = 0 ↔
          ((s.getCanClock firmware clock).2.setTiming firmware timing limits bitTiming).1 =
            true) := by
  have hefault : -efault ≠ 0 := by decide
  have heio : -eio ≠ 0 := by decide
  rw [ioctlSetBitrate] at h
  generalize s.getCanClock firmware clock = called at h ⊢
  obtain ⟨canClock, u⟩ := called
  dsimp only at h ⊢
  split at h
  case h_1 => cases h
  case h_2 =>
    cases h
    exact .inl ⟨hefault, rfl⟩
  case h_3 bitTiming hcalc =>
    cases h
    obtain ⟨clock, rfl⟩ : ∃ clock, canClock = some clock := by
      cases canClock with
      | none => cases hcalc
      | some clock => exact ⟨clock, rfl⟩
    refine .inr ⟨clock, bitTiming, rfl, hcalc, rfl, ?_⟩
    split
    case isTrue hok => exact ⟨fun _ => hok, fun _ => rfl⟩
    case isFalse hok => exact ⟨fun h => absurd h heio, fun h => absurd h hok⟩

/-- A bit rate is read back with the CAN clock when the bit timing was read. -/
theorem ioctlGetBitrate_cases {timing clock : Exchange} {result : Except ℤ (ℤ × ℤ)}
    (h : s.ioctlGetBitrate firmware timing clock limits = some (result, t)) :
    t = (s.getTiming firmware timing limits).2 ∨
      t = ((s.getTiming firmware timing limits).2.getCanClock firmware clock).2 := by
  rw [ioctlGetBitrate] at h
  generalize s.getTiming firmware timing limits = called at h ⊢
  split at h
  case h_1 u =>
    cases h
    exact .inl rfl
  case h_2 bitTiming u =>
    dsimp only at h
    split at h
    case h_1 => cases h
    case h_2 =>
      cases h
      exact .inr rfl
    case h_3 =>
      cases h
      exact .inr rfl

section

variable (hconforms : firmware.Conforms) (hs : s.Wf)

include hconforms hs

theorem setsOnly_ioctlSetBitrate {clock timing : Exchange} {bitrate samplePoint : ℤ}
    (h : s.ioctlSetBitrate firmware clock timing limits bitrate samplePoint = some (ret, t)) :
    SetsOnly firmware s t {limits.setting} := by
  have hget : SetsOnly firmware s (s.getCanClock firmware clock).2 {limits.setting} :=
    (getEffect_get hconforms hs clock .canClock).setsOnly
  rcases ioctlSetBitrate_cases h with ⟨-, rfl⟩ | ⟨-, bitTiming, -, -, rfl, -⟩
  · exact hget
  · exact hget.trans (setEffect_setTiming hconforms hget.wf timing limits bitTiming).setsOnly

theorem setsOnly_getTiming {touched : Set Setting} (x : Exchange) (limits : Limits) :
    SetsOnly firmware s (s.getTiming firmware x limits).2 touched := by
  cases limits with
  | nominal => exact (getEffect_get hconforms hs x (.value .bitTiming)).setsOnly
  | data => exact (getEffect_get hconforms hs x (.value .dataBitTiming)).setsOnly

theorem setsOnly_ioctlGetBitrate {timing clock : Exchange} {result : Except ℤ (ℤ × ℤ)}
    {touched : Set Setting}
    (h : s.ioctlGetBitrate firmware timing clock limits = some (result, t)) :
    SetsOnly firmware s t touched := by
  have htiming : SetsOnly firmware s (s.getTiming firmware timing limits).2 touched :=
    setsOnly_getTiming hconforms hs timing limits
  have hclock : SetsOnly firmware s
      ((s.getTiming firmware timing limits).2.getCanClock firmware clock).2 touched :=
    htiming.trans (getEffect_get hconforms htiming.wf clock .canClock).setsOnly
  rcases ioctlGetBitrate_cases h with rfl | rfl
  · exact htiming
  · exact hclock

/-- The clock that a timing is calculated for is the clock of the unit. -/
theorem clock_of_getCanClock {x : Exchange} {canClock : ℤ}
    (hget : (s.getCanClock firmware x).1 = some canClock)
    (hfresh : (s.getCanClock firmware x).2.Fresh) (hview : view ∈ s.Possible firmware) :
    canClock = view.clock := by
  obtain ⟨read, hread, hout⟩ :=
    (getEffect_get hconforms hs x .canClock).exists_view hfresh trivial hget
  rw [View.clock, clock_eq hview, ← clock_eq hread]
  exact hout

/-- A bit rate that is set is realised by the unit. -/
theorem realises_of_ioctlSetBitrate {clock timing : Exchange} {rate : ℕ × ℕ}
    (h : s.ioctlSetBitrate firmware clock timing limits rate.1 rate.2 = some (0, t))
    (hfresh : t.Fresh) (hview : view ∈ t.Possible firmware) : view.Realises limits rate := by
  rcases ioctlSetBitrate_cases h with ⟨hne, -⟩ | ⟨canClock, bitTiming, hget, hcalc, rfl, hok⟩
  · exact absurd rfl hne
  have hgot := getEffect_get hconforms hs clock .canClock
  rcases setTiming_cases hconforms hgot.wf timing limits bitTiming with
    ⟨-, hrefused⟩ | ⟨haccept, heffect, -⟩
  · change _ ↔ ((s.get firmware clock .canClock).2.setTiming firmware timing limits bitTiming).1 =
      true at hok
    rw [hrefused] at hok
    exact absurd (hok.mp rfl) Bool.false_ne_true
  obtain ⟨old, hold, rfl⟩ := heffect.view_of_done hfresh (Setting.kept_timing limits)
    (hok.mp rfl) hview
  have hclock : canClock = old.clock := clock_of_getCanClock hconforms hs hget
    (hfresh.of_log heffect.log_grows) (possible_subset hgot.possible hold)
  have htiming : (old.store limits.setting (packSetBitTiming bitTiming)).timing limits =
      bitTiming := by
    rw [View.timing, View.store_self]
    exact roundTrips_of_calcBitTiming hcalc haccept
  rw [View.Realises, htiming, View.clock_store, ← hclock]
  exact hcalc

/-- What a call of the script does to the unit: it sets one setting at most. -/
theorem setsOnly_startStep {candev : Candev} {xs : StartExchanges} {i : StartStep} {ok : Bool}
    (h : startStep firmware candev xs s i = some (ok, t)) : SetsOnly firmware s t i.changes := by
  cases i with
  | bittiming limits =>
      obtain ⟨⟨ret, u⟩, hset, hpair⟩ := Option.map_eq_some_iff.mp h
      obtain ⟨-, rfl⟩ := Prod.mk.inj hpair
      exact setsOnly_ioctlSetBitrate hconforms hs hset
  | set x setting v =>
      obtain ⟨payload, -, heffect⟩ := setEffect_set hconforms hs x setting v
      rw [show s.set firmware x setting v = (ok, t) from Option.some.inj h] at heffect
      exact heffect.setsOnly
  | resetTime =>
      cases h
      exact (getEffect_get hconforms hs xs.resetTime .resetTime).setsOnly

/-- A call that goes on has established what it is for. -/
theorem startStep_holds {candev : Candev} {xs : StartExchanges} {i : StartStep}
    (hi : i.Packs) (h : startStep firmware candev xs s i = some (true, t)) (hfresh : t.Fresh)
    (hview : view ∈ t.Possible firmware) : i.Holds candev view := by
  cases i with
  | bittiming limits =>
      obtain ⟨⟨ret, u⟩, hset, hpair⟩ := Option.map_eq_some_iff.mp h
      obtain ⟨hret, rfl⟩ := Prod.mk.inj hpair
      rw [of_decide_eq_true hret] at hset
      exact realises_of_ioctlSetBitrate hconforms hs hset hfresh hview
  | set x setting v =>
      obtain ⟨payload, hpayload, heffect⟩ := setEffect_set hconforms hs x setting v
      rw [show s.set firmware x setting v = (true, t) from Option.some.inj h] at heffect
      obtain ⟨old, -, rfl⟩ := heffect.view_of_done hfresh hi.2 rfl hview
      rw [hpayload (Setting.fits_packReq_of_inRange hi.1)]
      exact View.value_store_self hi.1
  | resetTime => exact trivial

end

/-! ### The whole script -/

/-- What a call was for stays as long as its setting is left alone. -/
theorem holds_of_same {candev : Candev} {i : StartStep} {old : View} {touched : Set Setting}
    (hi : i.Packs) (hne : ∀ setting ∈ i.changes, setting ∉ touched)
    (hsame : ∀ r : Readable, r.Kept → (∀ setting ∈ touched, r ≠ .value setting) → view r = old r)
    (h : i.Holds candev old) : i.Holds candev view := by
  have hvalue {setting : Setting} (hkept : (Readable.value setting).Kept)
      (hmem : setting ∈ i.changes) : view (.value setting) = old (.value setting) :=
    hsame _ hkept fun other hother heq => hne setting hmem (Readable.value.inj heq ▸ hother)
  cases i with
  | bittiming limits =>
      have hclock : view .canClock = old .canClock :=
        hsame .canClock trivial fun _ _ heq => Readable.noConfusion heq
      change calcBitTiming (some (parseResponseGetCanClock (view .canClock))) _ _ _ =
        some (some (parseResponseGetBitTiming (view (.value limits.setting))))
      rw [hclock, hvalue (Setting.kept_timing limits) rfl]
      exact h
  | set x setting v =>
      change setting.parseResp (view (.value setting)) = v
      rw [hvalue hi.2 rfl]
      exact h
  | resetTime => exact trivial

/-- The calls before the last one. -/
def configSteps (candev : Candev) (xs : StartExchanges) : List StartStep :=
  [.bittiming .nominal] ++ (if candev.fd then [.bittiming .data] else []) ++
    applyControlModes candev xs ++ [.resetTime]

section

variable {candev : Candev} {xs : StartExchanges}

theorem startSteps_eq : startSteps candev xs =
    configSteps candev xs ++ [.set xs.txRxControl .txRxControl true] := by
  simp [startSteps, configSteps]

theorem forall_configSteps {P : StartStep → Prop} : (∀ i ∈ configSteps candev xs, P i) ↔
    P (.bittiming .nominal) ∧ (candev.fd = true → P (.bittiming .data)) ∧
      P (.set xs.silentMode .silentMode (candev.ctrlmode &&& canCtrlmodeListenonly != 0 : Bool)) ∧
      P (.set xs.fdMode .fdMode candev.fd) ∧
      (candev.fd = true →
        P (.set xs.isoMode .isoMode (candev.ctrlmode &&& canCtrlmodeFdNonIso != 0 : Bool))) ∧
      P .resetTime := by
  rw [configSteps, applyControlModes]
  by_cases hfd : candev.fd = true
  · simp [hfd]
  · simp [hfd]

/-- A flag is a payload of one byte. -/
theorem packs_flag (x : Exchange) (setting : Setting) (v : setting.Value)
    (hfields : setting.fields = []) (hid : setting.id v = none)
    (hkept : (Readable.value setting).Kept) : (StartStep.set x setting v).Packs := by
  refine ⟨⟨?_, ?_⟩, hkept⟩
  · rw [hfields]
    exact fun f hf => absurd hf List.not_mem_nil
  · rw [hid]
    intro id hid
    cases hid

theorem configSteps_packs : ∀ i ∈ configSteps candev xs, i.Packs :=
  forall_configSteps.mpr ⟨trivial, fun _ => trivial, packs_flag _ .silentMode _ rfl rfl trivial,
    packs_flag _ .fdMode _ rfl rfl trivial, fun _ => packs_flag _ .isoMode _ rfl rfl trivial,
    trivial⟩

theorem configSteps_pairwise : (configSteps candev xs).Pairwise fun i j =>
    ∀ setting ∈ i.changes, setting ∉ j.changes := by
  rw [configSteps, applyControlModes]
  cases candev.fd <;> simp [StartStep.changes, Limits.setting]

/-- The settings that `ep1_cf02a_netdev_start` sets before its last call. -/
def configSettings : Set Setting := {.bitTiming, .dataBitTiming, .silentMode, .fdMode, .isoMode}

theorem changes_subset_configSettings :
    ∀ i ∈ configSteps candev xs, i.changes ⊆ configSettings := by
  refine forall_configSteps.mpr ⟨?_, fun _ => ?_, ?_, ?_, fun _ => ?_, ?_⟩
  all_goals simp [StartStep.changes, Limits.setting, configSettings]

/-- All that the calls in front of the last one are for makes up the configuration. -/
theorem applied_of_holds (h : ∀ i ∈ configSteps candev xs, i.Holds candev view) :
    candev.Applied view := by
  obtain ⟨hnominal, hdata, hsilent, hfd, hiso, -⟩ := forall_configSteps.mp h
  exact ⟨hsilent, hfd, hiso, hnominal, hdata⟩

variable (hconforms : firmware.Conforms) (hs : s.Wf)

include hconforms hs

/-- When the calls in front of the last one have all gone well, the unit is configured. -/
theorem applied_of_run
    (h : Script.run (fun i s => startStep firmware candev xs s i) (configSteps candev xs) s =
      some (true, t)) (hfresh : t.Fresh) (hview : view ∈ t.Possible firmware) :
    candev.Applied view := by
  have hholds : ∀ i ∈ configSteps candev xs,
      t.Fresh → ∀ view ∈ t.Possible firmware, i.Holds candev view := by
    refine Script.run_established (I := fun u : ConfigSystem κ => u.Wf)
      (Q := fun i (u : ConfigSystem κ) => u.Fresh → ∀ view ∈ u.Possible firmware,
        i.Holds candev view)
      (fun i _ u ok v hu hstep => (setsOnly_startStep hconforms hu hstep).wf)
      (fun i hi u v hu hstep hfresh view hview =>
        startStep_holds hconforms hu (configSteps_packs i hi) hstep hfresh hview) ?_ hs h
    refine (List.pairwise_iff_forall_sublist.mpr fun {i j} hsub => ?_)
    intro _ _ _ hu hholds hstep hfresh view hview
    have honly := setsOnly_startStep hconforms hu hstep
    obtain ⟨old, hold, hsame⟩ := honly.view view hview
    exact holds_of_same (configSteps_packs i (hsub.subset List.mem_cons_self))
      (List.pairwise_iff_forall_sublist.mp configSteps_pairwise hsub) hsame
      (hholds (honly.fresh hfresh) old hold)
  exact applied_of_holds fun i hi => hholds i hi hfresh view hview

theorem setsOnly_configSteps {ok : Bool}
    (h : Script.run (fun i s => startStep firmware candev xs s i) (configSteps candev xs) s =
      some (ok, t)) : SetsOnly firmware s t configSettings :=
  Script.run_invariant (I := fun u : ConfigSystem κ => SetsOnly firmware s u configSettings)
    (fun i hi _ _ _ hu hstep => hu.trans
      ((setsOnly_startStep hconforms hu.wf hstep).mono (changes_subset_configSettings i hi)))
    (.refl hs) h

/-- Wherever it ends: the calls before the last one, and what the last one does. -/
theorem netdevStart_split {ok : Bool} (h : s.netdevStart firmware candev xs = some (ok, t)) :
    ok = false ∧ SetsOnly firmware s t configSettings ∨
      ∃ u, Script.run (fun i s => startStep firmware candev xs s i) (configSteps candev xs) s =
          some (true, u) ∧ SetsOnly firmware s u configSettings ∧
        SetEffect firmware u t .txRxControl (packSetTxRxControl true) ok := by
  rw [netdevStart, startSteps_eq] at h
  rcases Script.run_append_cases h with ⟨rfl, hconfig⟩ | ⟨u, hconfig, hlast⟩
  · exact .inl ⟨rfl, setsOnly_configSteps hconforms hs hconfig⟩
  have honly := setsOnly_configSteps hconforms hs hconfig
  have hstep : startStep firmware candev xs u (.set xs.txRxControl .txRxControl true) =
      some (ok, t) := by
    rcases Script.run_cons_cases hlast with ⟨rfl, hfail⟩ | ⟨v, hdone, hnil⟩
    · exact hfail
    · cases hnil
      exact hdone
  obtain ⟨payload, hpayload, heffect⟩ :=
    setEffect_set hconforms honly.wf xs.txRxControl .txRxControl true
  rw [show u.set firmware xs.txRxControl .txRxControl true = (ok, t) from Option.some.inj hstep,
    hpayload rfl] at heffect
  exact .inr ⟨u, hconfig, honly, heffect⟩

/-- The unit is not started by it, or it is started with the configuration. -/
theorem netdevStart_cases {ok : Bool} (h : s.netdevStart firmware candev xs = some (ok, t))
    (hfresh : t.Fresh) (hview : view ∈ t.Possible firmware) :
    (ok = false ∧ ∃ old ∈ s.Possible firmware,
        view.value .txRxControl = old.value .txRxControl) ∨
      view.Started ∧ candev.Applied view := by
  have hsame {u : ConfigSystem κ} (honly : SetsOnly firmware s u configSettings) {view : View}
      (hview : view ∈ u.Possible firmware) :
      ∃ old ∈ s.Possible firmware, view.value .txRxControl = old.value .txRxControl := by
    obtain ⟨old, hold, hkept⟩ := honly.view view hview
    refine ⟨old, hold, congrArg (Setting.parseResp .txRxControl) (hkept _ trivial ?_)⟩
    simp [configSettings]
  rcases netdevStart_split hconforms hs h with ⟨hok, honly⟩ | ⟨u, hconfig, honly, heffect⟩
  · exact .inl ⟨hok, hsame honly hview⟩
  have hfreshU := hfresh.of_log heffect.log_grows
  have hstored {old : View} (hold : old ∈ u.Possible firmware) :
      (old.store .txRxControl (packSetTxRxControl true)).Started ∧
        candev.Applied (old.store .txRxControl (packSetTxRxControl true)) := by
    refine ⟨?_, (applied_of_run hconforms hs hconfig hfreshU hold).store _⟩
    rw [View.Started, View.value, View.store_self]
    rfl
  cases ok with
  | true =>
      obtain ⟨old, hold, rfl⟩ := heffect.view_of_done hfresh trivial rfl hview
      exact .inr (hstored hold)
  | false =>
      rcases heffect.view_cases hview with hold | ⟨old, hold, rfl⟩
      · exact .inl ⟨rfl, hsame honly hold⟩
      · exact .inr (hstored hold)

/-- The settings that `ep1_cf02a_netdev_start` sets. -/
theorem setsOnly_netdevStart {ok : Bool} (h : s.netdevStart firmware candev xs = some (ok, t)) :
    SetsOnly firmware s t (insert .txRxControl configSettings) := by
  rcases netdevStart_split hconforms hs h with ⟨-, honly⟩ | ⟨u, -, honly, heffect⟩
  · exact honly.mono (Set.subset_insert _ _)
  · refine (honly.mono (Set.subset_insert _ _)).trans (heffect.setsOnly.mono ?_)
    exact Set.singleton_subset_iff.mpr (Set.mem_insert _ _)

end

end ConfigSystem

end Ep1Cf02a

end AptUsbtrx
