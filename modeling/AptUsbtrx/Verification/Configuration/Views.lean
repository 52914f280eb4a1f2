import AptUsbtrx.Model.Configuration
import AptUsbtrx.Verification.Codec.CheckedTiming
import AptUsbtrx.Verification.Configuration.GetCommands
import AptUsbtrx.Verification.Configuration.SetCommands
import Mathlib.Logic.Function.Basic

/-! # What a unit may turn out to be

A unit with requests under way may come to report one thing or another. A view is one of these
outcomes, and the functions of the driver are described by what they do to the views. -/

namespace AptUsbtrx

open Memory

namespace Ep1Cf02a

/-! ### Views -/

/-- What a unit reports, for each of the things that can be read. -/
abbrev View := Readable → List UInt8

namespace View

variable {view : View} {setting other : Setting} {payload : List UInt8}

/-- The value of a setting. -/
def value (view : View) (setting : Setting) : setting.Value :=
  setting.parseResp (view (.value setting))

/-- The CAN clock. -/
def clock (view : View) : ℤ := parseResponseGetCanClock (view .canClock)

/-- The bit timing under the limits. -/
def timing (view : View) (limits : Limits) : BitTiming :=
  parseResponseGetBitTiming (view (.value limits.setting))

/-- The setting has been given the payload. -/
def store (view : View) (setting : Setting) (payload : List UInt8) : View :=
  Function.update view (.value setting) payload

theorem store_self : (view.store setting payload) (.value setting) = payload :=
  Function.update_self ..

theorem store_of_ne {r : Readable} (h : r ≠ .value setting) :
    (view.store setting payload) r = view r := Function.update_of_ne h ..

@[simp] theorem clock_store : (view.store setting payload).clock = view.clock :=
  congrArg parseResponseGetCanClock (store_of_ne fun heq => Readable.noConfusion heq)

theorem value_store_self {v : setting.Value} (hv : setting.InRange v) :
    (view.store setting (setting.packReq v)).value setting = v := by
  rw [value, store_self, ← List.append_nil (setting.packReq v), Setting.parseResp_packReq hv]

theorem value_store_of_ne (h : other ≠ setting) :
    (view.store setting payload).value other = view.value other :=
  congrArg other.parseResp (store_of_ne fun heq => h (Readable.value.inj heq))

theorem timing_store_of_ne {limits : Limits} (h : limits.setting ≠ setting) :
    (view.store setting payload).timing limits = view.timing limits :=
  congrArg parseResponseGetBitTiming (store_of_ne fun heq => h (Readable.value.inj heq))

end View

/-- The value fits into the payload. -/
theorem Setting.fits_packReq_of_inRange {setting : Setting} {v : setting.Value}
    (hv : setting.InRange v) : setting.Fits (setting.packReq v) :=
  (Setting.fits_packReq hv.id_length).length

theorem Setting.fits_packSetBitTiming (limits : Limits) (timing : BitTiming) :
    limits.setting.Fits (packSetBitTiming timing) := by cases limits <;> rfl

theorem Setting.kept_timing (limits : Limits) : (Readable.value limits.setting).Kept := by
  cases limits <;> exact trivial

namespace ConfigSystem

variable {κ : Type} {firmware : Firmware κ} {s t : ConfigSystem κ} {setting : Setting}
  {payload : List UInt8} {ok : Bool} {view : View}

/-- The unit may come to be seen like this. -/
def Possible (firmware : Firmware κ) (s : ConfigSystem κ) : Set View :=
  { view | ∀ r : Readable, r.Kept → view r ∈ s.link.possible firmware r }

theorem possible_subset (h : ∀ r : Readable, r.Kept →
    t.link.possible firmware r ⊆ s.link.possible firmware r) :
    t.Possible firmware ⊆ s.Possible firmware := fun _ hview r hkept => h r hkept (hview r hkept)

/-- The CAN clock cannot be set. -/
theorem clock_eq (hview : view ∈ s.Possible firmware) :
    view .canClock = firmware.report s.link.unit .canClock := by
  rcases hview .canClock trivial with hreport | ⟨setting, heq, -⟩
  · exact hreport
  · cases heq

/-- What is fresh was fresh before the log has grown. -/
theorem Fresh.of_log (h : t.Fresh) (hlog : s.log <+: t.log) : s.Fresh :=
  fun handover hmem => h handover (hlog.subset hmem)

/-- Calls that set nothing but these settings, seen from what the unit may report. -/
structure SetsOnly (firmware : Firmware κ) (s t : ConfigSystem κ) (touched : Set Setting) :
    Prop where
  wf : t.Wf
  log : s.log <+: t.log
  view : ∀ view ∈ t.Possible firmware, ∃ old ∈ s.Possible firmware, ∀ r : Readable, r.Kept →
    (∀ setting ∈ touched, r ≠ .value setting) → view r = old r

namespace SetsOnly

variable {u : ConfigSystem κ} {touched touched' : Set Setting}

theorem of_possible (hwf : t.Wf) (hlog : s.log <+: t.log)
    (hpossible : t.Possible firmware ⊆ s.Possible firmware) : SetsOnly firmware s t touched :=
  ⟨hwf, hlog, fun view hview => ⟨view, hpossible hview, fun _ _ _ => rfl⟩⟩

theorem refl (hs : s.Wf) : SetsOnly firmware s s touched :=
  of_possible hs List.prefix_rfl subset_rfl

theorem trans (h : SetsOnly firmware s t touched) (h' : SetsOnly firmware t u touched) :
    SetsOnly firmware s u touched := by
  refine ⟨h'.wf, h.log.trans h'.log, fun view hview => ?_⟩
  obtain ⟨mid, hmid, hlast⟩ := h'.view view hview
  obtain ⟨old, hold, hfirst⟩ := h.view mid hmid
  exact ⟨old, hold, fun r hkept hr => (hlast r hkept hr).trans (hfirst r hkept hr)⟩

theorem mono (h : SetsOnly firmware s t touched) (hle : touched ⊆ touched') :
    SetsOnly firmware s t touched' := by
  refine ⟨h.wf, h.log, fun view hview => ?_⟩
  obtain ⟨old, hold, hsame⟩ := h.view view hview
  exact ⟨old, hold, fun r hkept hr => hsame r hkept fun setting hmem => hr setting (hle hmem)⟩

theorem fresh (h : SetsOnly firmware s t touched) (hfresh : t.Fresh) : s.Fresh :=
  hfresh.of_log h.log

/-- Something else happens on the link. -/
theorem of_event (hconforms : firmware.Conforms) (hs : s.Wf) (event : LinkEvent) :
    SetsOnly firmware s (s.event firmware event) touched := by
  have hbelow := below_event hs hconforms event
  exact of_possible (hs.event hconforms event) (hbelow.log ▸ List.prefix_rfl)
    (possible_subset hbelow.possible)

end SetsOnly

/-! ### Set functions -/

namespace SetEffect

variable (h : SetEffect firmware s t setting payload ok)

include h

theorem log_grows : s.log <+: t.log := by
  rcases h.log with hsame | ⟨answered, hgrown⟩
  · exact hsame ▸ List.prefix_rfl
  · exact hgrown ▸ List.prefix_append _ _

/-- Whatever comes of it, a view keeps its values or is given the new one. -/
theorem view_cases (hview : view ∈ t.Possible firmware) :
    view ∈ s.Possible firmware ∨
      ∃ old ∈ s.Possible firmware, view = old.store setting payload := by
  by_cases hown : (Readable.value setting).Kept → view (.value setting) ∈
      s.link.possible firmware (.value setting)
  · refine .inl fun r hkept => ?_
    by_cases hr : r = .value setting
    · subst hr
      exact hown hkept
    · exact h.others r hkept hr (hview r hkept)
  · obtain ⟨hkept, hnew⟩ := Classical.not_imp.mp hown
    have hpayload : view (.value setting) = payload :=
      (h.own hkept (hview _ hkept)).resolve_right hnew
    refine .inr
      ⟨view.store setting (firmware.report s.link.unit (.value setting)), fun r hr => ?_, ?_⟩
    · by_cases heq : r = .value setting
      · subst heq
        rw [View.store_self]
        exact report_mem_possible s.link _
      · rw [View.store_of_ne heq]
        exact h.others r hr heq (hview r hr)
    · rw [View.store, View.store, Function.update_idem, ← hpayload, Function.update_eq_self]

theorem setsOnly : SetsOnly firmware s t {setting} := by
  refine ⟨h.wf, h.log_grows, fun view hview => ?_⟩
  rcases h.view_cases hview with hold | ⟨old, hold, rfl⟩
  · exact ⟨view, hold, fun _ _ _ => rfl⟩
  · exact ⟨old, hold, fun r _ hr => View.store_of_ne (hr setting rfl)⟩

/-- A success means the new value. -/
theorem view_of_done (hfresh : t.Fresh) (hkept : (Readable.value setting).Kept) (hok : ok = true)
    (hview : view ∈ t.Possible firmware) :
    ∃ old ∈ s.Possible firmware, view = old.store setting payload := by
  have hpayload : view (.value setting) = payload := h.done hfresh hkept hok (hview _ hkept)
  rcases h.view_cases hview with hold | hnew
  · refine ⟨view, hold, ?_⟩
    rw [View.store, ← hpayload, Function.update_eq_self]
  · exact hnew

/-- A failure that the unit has answered, or that it has not seen, means the old value. -/
theorem view_of_refused (hfresh : t.Fresh) (hkept : (Readable.value setting).Kept)
    (hok : ok = false) (hlog : t.log ≠ s.log ++ [⟨setting.command.reqCmdId, false, false⟩])
    (hview : view ∈ t.Possible firmware) : view ∈ s.Possible firmware := by
  intro r hr
  by_cases heq : r = .value setting
  · subst heq
    exact h.refused hfresh hkept hok hlog (hview _ hkept)
  · exact h.others r hr heq (hview r hr)

end SetEffect

section

variable (hconforms : firmware.Conforms) (hs : s.Wf)

include hconforms hs

/-- A timing that the check refuses changes nothing, and one that was carried out is remembered. -/
theorem setTiming_cases (x : Exchange) (limits : Limits) (timing : BitTiming) :
    checkBitTiming limits.const timing ≠ 0 ∧
        s.setTiming firmware x limits timing = (false, s) ∨
      checkBitTiming limits.const timing = 0 ∧
        SetEffect firmware s (s.setTiming firmware x limits timing).2 limits.setting
          (packSetBitTiming timing) (s.setTiming firmware x limits timing).1 ∧
        (s.setTiming firmware x limits timing).2.dev.uniqueData =
          if (s.setTiming firmware x limits timing).1 then
            s.dev.uniqueData.setTiming timing limits
          else s.dev.uniqueData := by
  obtain ⟨payload, hpayload, heffect, huniqueData⟩ :=
    setEffect_setCommand hconforms hs x limits.setting (packSetBitTiming timing)
  rw [hpayload (Setting.fits_packSetBitTiming limits timing)] at heffect
  rw [setTiming]
  by_cases haccept : checkBitTiming limits.const timing ≠ 0
  · rw [if_pos haccept]
    exact .inl ⟨haccept, rfl⟩
  rw [if_neg haccept]
  refine .inr ⟨not_not.mp haccept, ?_⟩
  generalize s.setCommand firmware x limits.setting.command (packSetBitTiming timing) = called
    at heffect huniqueData
  obtain ⟨ok, u⟩ := called
  dsimp only at heffect huniqueData ⊢
  cases ok with
  | true =>
      exact ⟨heffect.setUniqueData _,
        congrArg (fun data => data.setTiming timing limits) huniqueData⟩
  | false => exact ⟨heffect, huniqueData⟩

/-- The effect on the views; a timing that the check refuses is one that is not sent. -/
theorem setEffect_setTiming (x : Exchange) (limits : Limits) (timing : BitTiming) :
    SetEffect firmware s (s.setTiming firmware x limits timing).2 limits.setting
      (packSetBitTiming timing) (s.setTiming firmware x limits timing).1 := by
  rcases setTiming_cases hconforms hs x limits timing with ⟨-, hrefused⟩ | ⟨-, heffect, -⟩
  · rw [hrefused]
    exact setEffect_refl hs
  · exact heffect

theorem setEffect_set (x : Exchange) (setting : Setting) (v : setting.Value) :
    ∃ payload, (setting.Fits (setting.packReq v) → payload = setting.packReq v) ∧
      SetEffect firmware s (s.set firmware x setting v).2 setting payload
        (s.set firmware x setting v).1 := by
  cases setting with
  | bitTiming => exact ⟨_, fun _ => rfl, setEffect_setTiming hconforms hs x .nominal v⟩
  | dataBitTiming => exact ⟨_, fun _ => rfl, setEffect_setTiming hconforms hs x .data v⟩
  | silentMode | fdMode | isoMode | txRxControl | rtcTime | storeDataRxControl | storeEnable |
      storeMaxDuration =>
      obtain ⟨payload, hpayload, heffect, -⟩ := setEffect_setCommand hconforms hs x _ _
      exact ⟨payload, hpayload, heffect⟩

end

/-! ### Get functions -/

namespace GetEffect

variable {r : Readable} {output : Option r.getCmd.Output}
  (h : GetEffect firmware s t r output)

include h

theorem log_grows : s.log <+: t.log := by
  rcases h.log with hsame | ⟨answered, hgrown⟩
  · exact hsame ▸ List.prefix_rfl
  · exact hgrown ▸ List.prefix_append _ _

theorem setsOnly {touched : Set Setting} : SetsOnly firmware s t touched :=
  .of_possible h.wf h.log_grows (possible_subset h.possible)

/-- The output is decoded from a report that the unit may give. -/
theorem exists_view (hfresh : t.Fresh) (hkept : r.Kept) {out : r.getCmd.Output}
    (hout : output = some out) :
    ∃ view ∈ s.Possible firmware, out = r.getCmd.parseResp (view r) := by
  obtain ⟨payload, hpayload, hparse⟩ := h.read hfresh hkept out hout
  refine ⟨Function.update (firmware.report s.link.unit) r payload, fun r' hr' => ?_, ?_⟩
  · by_cases heq : r' = r
    · subst heq
      rwa [Function.update_self]
    · rw [Function.update_of_ne heq]
      exact report_mem_possible s.link r'
  · rw [Function.update_self]
    exact hparse

end GetEffect

end ConfigSystem

end Ep1Cf02a

end AptUsbtrx
