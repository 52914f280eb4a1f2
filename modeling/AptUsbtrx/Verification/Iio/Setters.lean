import AptUsbtrx.Shared.ReadModifyWrite
import AptUsbtrx.Verification.Iio.Attributes

/-! # Two operations at the same time

Operations that succeed read, modify and write back: the second one to write takes the change of the
first one back if it read before that was made. -/

namespace AptUsbtrx

open Execution

namespace Ep1Ag08a

/-! ### The steps of operations that succeed -/

theorem Setter.ne_zero_of_modify {op : Setter} {status : RespGetStatus} {ret : ℤ}
    (h : op.modify status = .error ret) : ret ≠ 0 := by
  cases op with
  | setInVoltRangeMode | setInVoltSampFreqMode | setOutVoltWaveformTypeMode =>
      simp only [Setter.modify] at h
      split at h
      · cases h
      · cases h
        decide
  | writeRaw val val2 mask =>
      cases mask with
      | raw | frequency | enable => cases h
      | other =>
          cases h
          decide

theorem ack_of_getStatus {unit : AnalogUnit} {reply : Reply} {status : RespGetStatus}
    (h : getStatus unit reply = some status) : reply = .ack := by
  cases reply with
  | ack => rfl
  | nack | lost => cases h

namespace SetterSystem

variable {ι : Type} [DecidableEq ι] {ops : ι → Setter} {s t : SetterSystem ι}
  {label : SetterLabel ι} {i j : ι}

/-- No operation has failed. -/
def Live (s : SetterSystem ι) : Prop := ∀ i ret, s.pcs i = .returned ret → ret = 0

theorem live_goto {pc : SetterPc} (h : (s.goto i pc).Live) {ret : ℤ} (hret : ret ≠ 0) :
    pc ≠ .returned ret := by
  intro hpc
  exact hret (h i ret ((Function.update_self ..).trans hpc))

/-- What the steps of operations that succeed do. -/
inductive LiveStep (ops : ι → Setter) (s : SetterSystem ι) :
    SetterLabel ι → SetterSystem ι → Prop where
  | getStatus {i : ι} {status : RespGetStatus} {setting : Setting} (hpc : s.pcs i = .getStatus)
      (hstatus : Ep1Ag08a.getStatus s.unit .ack = some status)
      (hmodify : (ops i).modify status = .ok setting) :
      LiveStep ops s (.getStatus i .ack) (s.goto i setting.next)
  | isDeviceStart {i : ι} {setting : Setting} (hpc : s.pcs i = .isDeviceStart setting) :
      LiveStep ops s (.isDeviceStart i .ack) (s.goto i (.set setting))
  | set {i : ι} {setting : Setting} {unit : AnalogUnit} (hpc : s.pcs i = .set setting)
      (hsend : setting.send s.unit = some unit) :
      LiveStep ops s (.set i .ack) ({ s with unit := unit }.goto i (.returned 0))

theorem liveStep_of_step (hstep : step ops s label = some t) (hlive : t.Live) :
    LiveStep ops s label t := by
  cases label with
  | getStatus i reply =>
      simp only [step] at hstep
      split at hstep
      case h_1 hpc =>
        split at hstep
        case h_1 status hstatus =>
          obtain rfl := ack_of_getStatus hstatus
          split at hstep
          case h_1 setting hmodify =>
            cases hstep
            exact .getStatus hpc hstatus hmodify
          case h_2 ret hmodify =>
            cases hstep
            exact absurd rfl (live_goto hlive (Setter.ne_zero_of_modify hmodify))
        case h_2 =>
          cases hstep
          exact absurd rfl (live_goto hlive (by decide))
      case h_2 => cases hstep
  | isDeviceStart i reply =>
      simp only [step] at hstep
      split at hstep
      case h_1 setting hpc =>
        split at hstep
        case h_1 status hstatus =>
          obtain rfl := ack_of_getStatus hstatus
          split at hstep
          case isTrue =>
            cases hstep
            exact absurd rfl (live_goto hlive (by decide))
          case isFalse =>
            cases hstep
            exact .isDeviceStart hpc
        case h_2 =>
          cases hstep
          exact absurd rfl (live_goto hlive (by decide))
      case h_2 => cases hstep
  | set i reply =>
      simp only [step] at hstep
      split at hstep
      case h_1 setting hpc =>
        split at hstep
        case h_2 unit hsend =>
          cases hstep
          exact .set hpc hsend
        case h_1 | h_3 | h_4 =>
          cases hstep
          exact absurd rfl (live_goto hlive (by decide))
      case h_2 => cases hstep

/-- Only operations that have not returned take steps. -/
theorem pcs_of_step (hstep : step ops s label = some t) :
    ∃ i pc, (∀ ret, s.pcs i ≠ .returned ret) ∧ t.pcs = Function.update s.pcs i pc := by
  cases label with
  | getStatus i reply =>
      simp only [step] at hstep
      split at hstep
      case h_1 hpc =>
        cases hstep
        exact ⟨i, _, by simp [hpc], rfl⟩
      case h_2 => cases hstep
  | isDeviceStart i reply =>
      simp only [step] at hstep
      split at hstep
      case h_1 setting hpc =>
        cases hstep
        exact ⟨i, _, by simp [hpc], rfl⟩
      case h_2 => cases hstep
  | set i reply =>
      simp only [step] at hstep
      split at hstep
      case h_1 setting hpc =>
        refine ⟨i, if reply = .ack ∧ (setting.send s.unit).isSome then .returned 0
          else .returned (-eio), by simp [hpc], ?_⟩
        split at hstep
        case h_1 hsend =>
          cases hstep
          simp [goto, hsend]
        case h_2 hsend =>
          cases hstep
          simp [goto, hsend]
        case h_3 =>
          cases hstep
          simp [goto]
        case h_4 executed _ =>
          cases hstep
          cases executed with
          | true | false => simp [goto]
      case h_2 => cases hstep

theorem live_of_step (hstep : step ops s label = some t) (hlive : t.Live) : s.Live := by
  intro j ret hj
  obtain ⟨i, pc, hi, hpcs⟩ := pcs_of_step hstep
  have hji : j ≠ i := by
    rintro rfl
    exact hi ret hj
  apply hlive j ret
  rw [hpcs, Function.update_of_ne hji, hj]

/-! ### Reading, modifying and writing back -/

end SetterSystem

/-- What an operation sends when the unit is as given. -/
def Setter.message (op : Setter) (unit : AnalogUnit) : Option Setting :=
  (getStatus unit .ack).bind fun status => (op.modify status).toOption

/-- `Setting.send` with the unit in front. -/
def AnalogUnit.put (unit : AnalogUnit) (setting : Setting) : Option AnalogUnit := setting.send unit

def SetterPc.phase : SetterPc → ReadModifyWrite.Phase Setting
  | getStatus => .idle
  | isDeviceStart setting | set setting => .ready setting
  | returned _ => .done

/-- The messages that read or write; the second status decides on failure only. -/
def SetterLabel.access {ι : Type} : SetterLabel ι → Option (ReadModifyWrite.Label ι)
  | getStatus i .ack => some (.read i)
  | set i .ack => some (.write i)
  | _ => none

theorem Setting.phase_next (setting : Setting) : setting.next.phase = .ready setting := by
  cases setting with
  | input | output | control => rfl

namespace SetterSystem

variable {ι : Type} [DecidableEq ι] {ops : ι → Setter} {s t : SetterSystem ι}
  {label : SetterLabel ι} {i j : ι}

def access (s : SetterSystem ι) : ReadModifyWrite.State ι AnalogUnit Setting :=
  ⟨s.unit, fun i => (s.pcs i).phase⟩

theorem access_goto (i : ι) (pc : SetterPc) :
    (s.goto i pc).access = ⟨s.unit, Function.update s.access.phase i pc.phase⟩ := by
  rw [access]
  congr 1
  funext j
  exact Function.apply_update (fun _ => SetterPc.phase) s.pcs i pc j

/-- A step of operations that succeed reads, writes or changes nothing. -/
theorem access_of_liveStep (h : LiveStep ops s label t) :
    exec (ReadModifyWrite.step (fun i => (ops i).message) AnalogUnit.put) s.access
      label.access.toList = some t.access := by
  cases h with
  | @getStatus i status setting hpc hstatus hmodify =>
      have hread : ReadModifyWrite.step (fun i => (ops i).message) AnalogUnit.put s.access
          (.read i) = some (s.goto i setting.next).access := by
        apply ReadModifyWrite.read_eq_some_iff.mpr
        refine ⟨by simp [access, hpc, SetterPc.phase], setting, ?_, ?_⟩
        · simp [Setter.message, access, hstatus, hmodify, Except.toOption]
        · rw [access_goto, setting.phase_next]
          rfl
      simpa [SetterLabel.access] using hread
  | @isDeviceStart i setting hpc =>
      have hsame : (s.goto i (.set setting)).access = s.access := by
        rw [access_goto]
        have hphase : s.access.phase i = (SetterPc.set setting).phase := by
          simp [access, hpc, SetterPc.phase]
        rw [← hphase, Function.update_eq_self]
        rfl
      simp [SetterLabel.access, hsame]
  | @set i setting unit hpc hsend =>
      have hwrite : ReadModifyWrite.step (fun i => (ops i).message) AnalogUnit.put s.access
          (.write i) = some ({ s with unit := unit }.goto i (.returned 0)).access := by
        apply ReadModifyWrite.write_eq_some_iff.mpr
        refine ⟨setting, by simp [access, hpc, SetterPc.phase], unit, hsend, ?_⟩
        rw [access_goto]
        rfl
      simpa [SetterLabel.access] using hwrite

theorem access_of_exec {labels : List (SetterLabel ι)} (hlive : t.Live)
    (hrun : exec (step ops) s labels = some t) :
    s.Live ∧ exec (ReadModifyWrite.step (fun i => (ops i).message) AnalogUnit.put) s.access
      (labels.filterMap SetterLabel.access) = some t.access := by
  induction labels generalizing s with
  | nil =>
      simp only [exec_nil, Option.some.injEq] at hrun
      subst hrun
      exact ⟨hlive, rfl⟩
  | cons label labels ih =>
      obtain ⟨u, hu, hrest⟩ := Option.bind_eq_some_iff.mp hrun
      obtain ⟨hulive, hexec⟩ := ih hrest
      refine ⟨live_of_step hu hulive, ?_⟩
      have hstep := access_of_liveStep (liveStep_of_step hu hulive)
      have hcons : (label :: labels).filterMap SetterLabel.access =
          label.access.toList ++ labels.filterMap SetterLabel.access := by
        cases hlabel : label.access with
        | none => simp [hlabel]
        | some k => simp [hlabel]
      rw [hcons, exec_append, hstep]
      exact hexec

end SetterSystem

/-! ### Two operations -/

theorem exists_of_filterMap_eq {α β : Type} {f : α → Option β} {l : List α} {before after : List β}
    {b : β} (h : l.filterMap f = before ++ b :: after) :
    ∃ x a y, l = x ++ a :: y ∧ x.filterMap f = before ∧ f a = some b ∧ y.filterMap f = after := by
  obtain ⟨x, y, rfl, hx, hy⟩ := List.filterMap_eq_append_iff.mp h
  obtain ⟨y₁, a, y₂, rfl, hnone, ha, hy₂⟩ := List.filterMap_eq_cons_iff.mp hy
  refine ⟨x ++ y₁, a, y₂, by simp, ?_, ha, hy₂⟩
  have hy₁ : y₁.filterMap f = [] := List.filterMap_eq_nil_iff.mpr hnone
  rw [List.filterMap_append, hx, hy₁, List.append_nil]

/-- The message that reads or writes. -/
def SetterLabel.ofAccess {ι : Type} : ReadModifyWrite.Label ι → SetterLabel ι
  | .read i => .getStatus i .ack
  | .write i => .set i .ack

theorem SetterLabel.eq_ofAccess {ι : Type} {label : SetterLabel ι} {k : ReadModifyWrite.Label ι}
    (h : label.access = some k) : label = ofAccess k := by
  cases label with
  | getStatus i reply | set i reply =>
      cases reply with
      | ack =>
          cases h
          rfl
      | nack | lost => cases h
  | isDeviceStart i reply => cases h

theorem read_mem_filterMap_iff {ι : Type} {labels : List (SetterLabel ι)} {i : ι} :
    .read i ∈ labels.filterMap SetterLabel.access ↔ .getStatus i .ack ∈ labels := by
  rw [List.mem_filterMap]
  constructor
  · rintro ⟨label, hmem, hlabel⟩
    rw [SetterLabel.eq_ofAccess hlabel] at hmem
    exact hmem
  · intro hmem
    exact ⟨_, hmem, rfl⟩

theorem exists_of_message {op : Setter} {unit : AnalogUnit} {setting : Setting}
    (h : op.message unit = some setting) :
    ∃ status, StatusSpec unit status ∧ op.modify status = .ok setting := by
  obtain ⟨status, hstatus, hmodify⟩ := Option.bind_eq_some_iff.mp h
  refine ⟨status, statusSpec_of_getStatus hstatus, ?_⟩
  cases hop : op.modify status with
  | ok setting' =>
      rw [hop] at hmodify
      cases hmodify
      rfl
  | error ret =>
      rw [hop] at hmodify
      cases hmodify

namespace SetterSystem

variable {ops : Bool → Setter} {unit : AnalogUnit} {t : SetterSystem Bool}
  {labels : List (SetterLabel Bool)} {attr : Bool → Attribute} {value : Bool → UInt8}

theorem access_start {ι : Type} {ops : ι → Setter} (hlookup : ∀ i, (ops i).lookup = true) :
    (start unit ops).access = ReadModifyWrite.start unit := by
  rw [access, ReadModifyWrite.start]
  congr 1
  funext i
  simp [start, hlookup i, SetterPc.phase]

/-- In every run in which two operations on different attributes of one record succeed, the unit
has both changes in the end exactly if the attribute of the first one to write went back
unchanged. -/
theorem both_held_iff (hchange : ∀ j, (ops j).change = some (attr j, value j))
    (hattr : attr false ≠ attr true) (hrecord : (attr false).record = (attr true).record)
    (hrun : exec (step ops) (start unit ops) labels = some t)
    (hsuccess : ∀ j, t.pcs j = .returned 0) :
    ∃ i before between after,
      labels = before ++ .set i .ack :: (between ++ .set (!i) .ack :: after) ∧
      ((∀ j, t.unit.held (attr j) = value j) ↔
        (attr i).resent (if .getStatus (!i) .ack ∈ before then unit.held (attr i) else value i) =
          value i) := by
  have hlive : t.Live := by
    intro j ret hj
    rw [hsuccess j] at hj
    cases hj
    rfl
  obtain ⟨-, hexec⟩ := access_of_exec hlive hrun
  rw [access_start fun j => Setter.lookup_of_change (hchange j)] at hexec
  have hdone : ∀ j, t.access.phase j = .done := by
    intro j
    simp [access, hsuccess j, SetterPc.phase]
  obtain ⟨i, before', between', horder⟩ := ReadModifyWrite.order_of_all_done hexec hdone
  rw [horder] at hexec
  obtain ⟨-, first, w, second, hfirst, hw, hsecond, ht⟩ := ReadModifyWrite.value_of_order hexec
  obtain ⟨before, label, rest, rfl, rfl, hlabel, hrest⟩ := exists_of_filterMap_eq horder
  obtain ⟨between, label', after, rfl, -, hlabel', -⟩ := exists_of_filterMap_eq hrest
  obtain rfl := SetterLabel.eq_ofAccess hlabel
  obtain rfl := SetterLabel.eq_ofAccess hlabel'
  have hne : attr i ≠ attr (!i) := by
    cases i with
    | false => exact hattr
    | true => exact hattr.symm
  have hsame : (attr i).record = (attr (!i)).record := by
    cases i with
    | false => exact hrecord
    | true => exact hrecord.symm
  obtain ⟨status, -, hmodify⟩ := exists_of_message hfirst
  obtain ⟨status', hstatus', hmodify'⟩ := exists_of_message hsecond
  have hwheld : w.held (attr i) = value i := held_of_change hmodify hw (hchange i)
  have hown : t.unit.held (attr !i) = value (!i) := held_of_change hmodify' ht (hchange !i)
  have hother := held_of_keeps hstatus' ht (keeps_of_modify hmodify' (hchange !i) hne hsame)
  rw [apply_ite (AnalogUnit.held · (attr i)), hwheld] at hother
  simp only [read_mem_filterMap_iff] at hother
  refine ⟨i, before, between, after, rfl, ?_⟩
  constructor
  · intro hboth
    exact hother.symm.trans (hboth i)
  · intro hresent j
    by_cases hji : j = i
    · rw [hji]
      exact hother.trans hresent
    · rw [Bool.eq_not_of_ne hji]
      exact hown

def firstCh : Ch := ⟨0, Nat.zero_lt_succ 7⟩

/-- The range of the first channel to 5 V and the sampling frequency to 5000 Hz. -/
def twoSetters : Bool → Setter
  | false => .setInVoltRangeMode firstCh 1
  | true => .setInVoltSampFreqMode 1

def twoAttributes : Bool → Attribute
  | false => .inVoltRange firstCh
  | true => .inVoltSampFreq

def twoBytes : Bool → UInt8
  | false => 0x01
  | true => 0x02

/-- A unit at rest, with ranges of 10 V and a sampling frequency of 10000 Hz. -/
def unitAtRest : AnalogUnit := ⟨0x01, fun _ => 0x00, 0x00, 0x01, 0x19, 0x0A, 0x00⟩

/-- Both operations read before one writes. -/
def crossedLabels : List (SetterLabel Bool) :=
  [.getStatus false .ack, .getStatus true .ack, .isDeviceStart false .ack, .set false .ack,
    .isDeviceStart true .ack, .set true .ack]

/-- The range is taken back. -/
theorem range_of_crossed : ∃ t : SetterSystem Bool,
    exec (step twoSetters) (start unitAtRest twoSetters) crossedLabels = some t ∧
      (∀ j, t.pcs j = .returned 0) ∧ (twoSetters false).change = some (.inVoltRange firstCh, 0x01) ∧
      t.unit.held (.inVoltRange firstCh) = 0x00 := by
  have hrun : (exec (step twoSetters) (start unitAtRest twoSetters) crossedLabels).any
      (fun t => (∀ j, t.pcs j = .returned 0) ∧ t.unit.held (.inVoltRange firstCh) = 0x00) = true := by
    decide +kernel
  obtain ⟨t, ht, hstate⟩ := (Option.any_eq_true _ _).mp hrun
  obtain ⟨hpcs, hheld⟩ := of_decide_eq_true hstate
  exact ⟨t, ht, hpcs, rfl, hheld⟩

/-- One operation after the other. -/
theorem both_held_iff_in_turn : ∃ t : SetterSystem Bool,
    exec (step twoSetters) (start unitAtRest twoSetters)
        [.getStatus false .ack, .isDeviceStart false .ack, .set false .ack,
          .getStatus true .ack, .isDeviceStart true .ack, .set true .ack] = some t ∧
      t.unit.held (.inVoltRange firstCh) = 0x01 ∧ t.unit.held .inVoltSampFreq = 0x02 := by
  have hrun : (exec (step twoSetters) (start unitAtRest twoSetters)
      [.getStatus false .ack, .isDeviceStart false .ack, .set false .ack,
        .getStatus true .ack, .isDeviceStart true .ack, .set true .ack]).any
      (fun t => ∀ j, t.pcs j = .returned 0) = true := by
    decide +kernel
  obtain ⟨t, ht, hpcs⟩ := (Option.any_eq_true _ _).mp hrun
  have hchange : ∀ j, (twoSetters j).change = some (twoAttributes j, twoBytes j) := by decide
  obtain ⟨i, before, between, after, hlabels, hiff⟩ :=
    both_held_iff hchange (by decide) (by decide) ht (of_decide_eq_true hpcs)
  have hsets : [SetterLabel.set i .ack, .set (!i) .ack].Sublist
      (before ++ .set i .ack :: (between ++ .set (!i) .ack :: after)) := by
    refine List.sublist_append_of_sublist_right (List.Sublist.cons_cons _ ?_)
    exact List.singleton_sublist.mpr (by simp)
  rw [← hlabels] at hsets
  cases i with
  | true => exact absurd hsets (by decide)
  | false =>
      have hread : SetterLabel.getStatus true .ack ∉ before := by
        intro hmem
        have hcrossed : [SetterLabel.getStatus true .ack, .set false .ack].Sublist
            (before ++ [.set false .ack] ++ (between ++ .set true .ack :: after)) :=
          List.sublist_append_of_sublist_left
            ((List.singleton_sublist.mpr hmem).append (List.Sublist.refl _))
        rw [List.append_assoc, List.singleton_append] at hcrossed
        exact absurd (hlabels ▸ hcrossed) (by decide)
      have hboth := hiff.mpr (by simp [hread, twoAttributes, Attribute.resent])
      exact ⟨t, ht, hboth false, hboth true⟩

end SetterSystem

end Ep1Ag08a

end AptUsbtrx
