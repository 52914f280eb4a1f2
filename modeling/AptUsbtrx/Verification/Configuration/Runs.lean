import AptUsbtrx.Shared.Execution
import AptUsbtrx.Verification.Configuration.RegisterUnit
import AptUsbtrx.Verification.Configuration.Start

/-! # Runs of the configuration

Files, ioctls and the interface change the unit in any order, every exchange may fail, and answers
may come late. -/

namespace AptUsbtrx

open Memory Word32 Execution

namespace Ep1Cf02a

/-- The settings that a call may set. -/
def ConfigCall.touches : ConfigCall → Set Setting
  | .ioctlSet _ setting _ => {setting}
  | .ioctlSetBitrate _ _ limits _ _ | .setBittiming _ _ limits => {limits.setting}
  | .ndoOpen _ _ | .setModeStart _ _ => insert .txRxControl ConfigSystem.configSettings
  | .ndoStop _ => {.txRxControl}
  | _ => ∅

namespace ConfigCalls

open ConfigSystem (SetsOnly)

variable {κ : Type} {firmware : Firmware κ} {s t : ConfigCalls κ} {call : ConfigCall} {ok : Bool}

/-! ### What a call does -/

theorem netdevStart_cases {xs : StartExchanges} (h : s.netdevStart firmware xs = some (ok, t)) :
    ∃ sys, s.toConfigSystem.netdevStart firmware s.candev xs = some (ok, sys) ∧
      t = { s with
        toConfigSystem := sys
        channel := if ok then { s.channel with ifType := .net } else s.channel } := by
  obtain ⟨⟨ok, sys⟩, hrun, hpair⟩ := Option.map_eq_some_iff.mp h
  cases hpair
  exact ⟨sys, hrun, rfl⟩

/-- What a call does. -/
inductive Outcome (firmware : Firmware κ) (s : ConfigCalls κ) :
    ConfigCall → ConfigCalls κ → Prop where
  | refused {call : ConfigCall} : Outcome firmware s call s
  | opened : s.channel.ifType ≠ .net → Outcome firmware s .fileOpen
      { s with channel := ⟨.file, s.channel.fileOpenCount + 1⟩, files := s.files + 1 }
  | closed : s.files ≠ 0 → Outcome firmware s .fileClose
      { s with channel := (fileClose s.channel).2, files := s.files - 1 }
  | set {x : Exchange} {setting : Setting} {v : setting.Value} : s.files ≠ 0 →
      Outcome firmware s (.ioctlSet x setting v)
        { s with toConfigSystem := (s.toConfigSystem.set firmware x setting v).2 }
  | bitrate {clock timing : Exchange} {limits : Limits} {bitrate samplePoint ret : ℤ}
      {sys : ConfigSystem κ} : s.files ≠ 0 →
      s.toConfigSystem.ioctlSetBitrate firmware clock timing limits bitrate samplePoint =
        some (ret, sys) →
      Outcome firmware s (.ioctlSetBitrate clock timing limits bitrate samplePoint)
        { s with toConfigSystem := sys }
  | got {x : Exchange} {r : Readable} : s.files ≠ 0 →
      Outcome firmware s (.ioctlGet x r)
        { s with toConfigSystem := (s.toConfigSystem.get firmware x r).2 }
  | gotBitrate {timing clock : Exchange} {limits : Limits} {result : Except ℤ (ℤ × ℤ)}
      {sys : ConfigSystem κ} : s.files ≠ 0 →
      s.toConfigSystem.ioctlGetBitrate firmware timing clock limits = some (result, sys) →
      Outcome firmware s (.ioctlGetBitrate timing clock limits) { s with toConfigSystem := sys }
  | relinked {candev : Candev} : s.netUp = false →
      Outcome firmware s (.changelink candev) { s with candev := candev }
  | bittiming {clock timing : Exchange} {limits : Limits} {ret : ℤ} {sys : ConfigSystem κ} :
      s.netUp = false →
      s.toConfigSystem.ioctlSetBitrate firmware clock timing limits (s.candev.rate limits).1
        (s.candev.rate limits).2 = some (ret, sys) →
      Outcome firmware s (.setBittiming clock timing limits) { s with toConfigSystem := sys }
  | up {err : ℤ} {xs : StartExchanges} {sys : ConfigSystem κ} {ok : Bool} : s.netUp = false →
      s.channel.ifType = .none →
      s.toConfigSystem.netdevStart firmware s.candev xs = some (ok, sys) →
      Outcome firmware s (.ndoOpen err xs) { s with
        toConfigSystem := sys
        channel := if ok then { s.channel with ifType := .net } else s.channel
        netUp := ok }
  | down {x : Exchange} : s.netUp = true → Outcome firmware s (.ndoStop x) { s with
      toConfigSystem := (s.stop firmware x).2.toConfigSystem
      channel := if (s.stop firmware x).1 then { s.channel with ifType := .none } else s.channel
      netUp := false }
  | stuck {x : Exchange} {xs : StartExchanges} : s.netUp = true →
      Outcome firmware s (.setModeStart x xs) (s.stop firmware x).2
  | restarted {x : Exchange} {xs : StartExchanges} {sys : ConfigSystem κ} {ok : Bool} :
      s.netUp = true → (s.stop firmware x).1 = true →
      (s.stop firmware x).2.toConfigSystem.netdevStart firmware s.candev xs = some (ok, sys) →
      Outcome firmware s (.setModeStart x xs) { s with
        toConfigSystem := sys
        channel := if ok then { s.channel with ifType := .net } else s.channel }
  | linked {event : LinkEvent} : Outcome firmware s (.link event)
      { s with toConfigSystem := s.toConfigSystem.event firmware event }

theorem ioctl_cases {call : Option (ConfigSystem κ)} (h : s.ioctl call = some t) :
    s.files ≠ 0 ∧ ∃ sys, call = some sys ∧ t = { s with toConfigSystem := sys } := by
  rw [ioctl] at h
  split at h
  case isTrue => cases h
  case isFalse hfiles =>
    obtain ⟨sys, hcall, rfl⟩ := Option.map_eq_some_iff.mp h
    exact ⟨hfiles, sys, hcall, rfl⟩

theorem outcome_of_step (hstep : s.step firmware call = some t) : Outcome firmware s call t := by
  cases call with
  | link event =>
      cases hstep
      exact .linked
  | fileOpen =>
      by_cases hnet : s.channel.ifType = .net
      · rw [step, fileOpen, if_pos hnet] at hstep
        cases hstep
        exact .refused
      · rw [step, fileOpen, if_neg hnet] at hstep
        cases hstep
        exact .opened hnet
  | fileClose =>
      rw [step] at hstep
      split at hstep
      case isTrue => cases hstep
      case isFalse hfiles =>
        cases hstep
        exact .closed hfiles
  | ioctlSet x setting v =>
      obtain ⟨hfiles, sys, hcall, rfl⟩ := ioctl_cases hstep
      cases hcall
      exact .set hfiles
  | ioctlSetBitrate clock timing limits bitrate samplePoint =>
      obtain ⟨hfiles, sys, hcall, rfl⟩ := ioctl_cases hstep
      obtain ⟨⟨ret, sys⟩, hset, rfl⟩ := Option.map_eq_some_iff.mp hcall
      exact .bitrate hfiles hset
  | ioctlGet x r =>
      obtain ⟨hfiles, sys, hcall, rfl⟩ := ioctl_cases hstep
      cases hcall
      exact .got hfiles
  | ioctlGetBitrate timing clock limits =>
      obtain ⟨hfiles, sys, hcall, rfl⟩ := ioctl_cases hstep
      obtain ⟨⟨result, sys⟩, hget, rfl⟩ := Option.map_eq_some_iff.mp hcall
      exact .gotBitrate hfiles hget
  | changelink candev =>
      rw [step] at hstep
      split at hstep
      case isTrue => cases hstep
      case isFalse hdown =>
        cases hstep
        exact .relinked (Bool.eq_false_of_not_eq_true hdown)
  | setBittiming clock timing limits =>
      rw [step] at hstep
      split at hstep
      case isTrue => cases hstep
      case isFalse hdown =>
        obtain ⟨⟨ret, sys⟩, hset, rfl⟩ := Option.map_eq_some_iff.mp hstep
        exact .bittiming (Bool.eq_false_of_not_eq_true hdown) hset
  | ndoOpen err xs =>
      rw [step] at hstep
      split at hstep
      case isTrue => cases hstep
      case isFalse hdown =>
        split at hstep
        case isTrue =>
          cases hstep
          exact .refused
        case isFalse hnone =>
          split at hstep
          case isTrue =>
            cases hstep
            exact .refused
          case isFalse =>
            obtain ⟨⟨ok, u⟩, hstart, rfl⟩ := Option.map_eq_some_iff.mp hstep
            obtain ⟨sys, hrun, rfl⟩ := netdevStart_cases hstart
            exact .up (Bool.eq_false_of_not_eq_true hdown) (not_not.mp hnone) hrun
  | ndoStop x =>
      rw [step] at hstep
      split at hstep
      case isFalse => cases hstep
      case isTrue hup =>
        cases hstep
        exact .down hup
  | setModeStart x xs =>
      rw [step] at hstep
      split at hstep
      case isFalse => cases hstep
      case isTrue hup =>
        dsimp only at hstep
        split at hstep
        case isFalse =>
          cases hstep
          exact .stuck hup
        case isTrue hok =>
          obtain ⟨⟨ok, u⟩, hstart, rfl⟩ := Option.map_eq_some_iff.mp hstep
          obtain ⟨sys, hrun, rfl⟩ := netdevStart_cases hstart
          exact .restarted hup hok hrun

theorem setEffect_stop (hconforms : firmware.Conforms) (hs : s.Wf) (x : Exchange) :
    ConfigSystem.SetEffect firmware s.toConfigSystem (s.stop firmware x).2.toConfigSystem
      .txRxControl (packSetTxRxControl false) (s.stop firmware x).1 := by
  obtain ⟨payload, hpayload, heffect⟩ :=
    ConfigSystem.setEffect_set hconforms hs x .txRxControl false
  rwa [hpayload rfl] at heffect

theorem setsOnly_step (hconforms : firmware.Conforms) (hs : s.Wf) (h : Outcome firmware s call t) :
    SetsOnly firmware s.toConfigSystem t.toConfigSystem call.touches := by
  cases h with
  | refused | opened | closed | relinked => exact .refl hs
  | @set x setting v =>
      obtain ⟨payload, -, heffect⟩ := ConfigSystem.setEffect_set hconforms hs x setting v
      exact heffect.setsOnly
  | bitrate _ hset | bittiming _ hset =>
      exact ConfigSystem.setsOnly_ioctlSetBitrate hconforms hs hset
  | got => exact (ConfigSystem.getEffect_get hconforms hs _ _).setsOnly
  | gotBitrate _ hget => exact ConfigSystem.setsOnly_ioctlGetBitrate hconforms hs hget
  | up _ _ hrun => exact ConfigSystem.setsOnly_netdevStart hconforms hs hrun
  | down => exact (setEffect_stop hconforms hs _).setsOnly
  | stuck =>
      exact (setEffect_stop hconforms hs _).setsOnly.mono
        (Set.singleton_subset_iff.mpr (Set.mem_insert _ _))
  | @restarted x _ _ _ _ _ hrun =>
      have hstop := (setEffect_stop hconforms hs x).setsOnly.mono
        (Set.singleton_subset_iff.mpr (Set.mem_insert _ ConfigSystem.configSettings))
      exact hstop.trans (ConfigSystem.setsOnly_netdevStart hconforms hstop.wf hrun)
  | linked => exact .of_event hconforms hs _

/-! ### An interface that is up -/

/-- While the interface is up no file is open, and a unit that sends is configured for it. -/
structure Inv (firmware : Firmware κ) (s : ConfigCalls κ) : Prop where
  wf : s.Wf
  counted : s.channel.fileOpenCount = s.files
  noFiles : s.channel.ifType ≠ .file → s.files = 0
  net : s.netUp = true → s.channel.ifType = .net
  applied : s.netUp = true → s.Fresh → ∀ view ∈ s.Possible firmware, view.Started →
    s.candev.Applied view

theorem inv_start {sys : ConfigSystem κ} (hsys : sys.Wf) (candev : Candev) :
    (start sys candev).Inv firmware where
  wf := hsys
  counted := rfl
  noFiles _ := rfl
  net hup := Bool.noConfusion hup
  applied hup := Bool.noConfusion hup

/-- A stop that changes the unit at all stops it. -/
theorem view_stop (hconforms : firmware.Conforms) (hs : s.Wf) (x : Exchange)
    (hfresh : (s.stop firmware x).2.Fresh) {view : View}
    (hview : view ∈ (s.stop firmware x).2.Possible firmware) :
    view ∈ s.Possible firmware ∧ (s.stop firmware x).1 = false ∨ ¬ view.Started := by
  have heffect := setEffect_stop hconforms hs x
  have hstopped (old : View) :
      ¬ (old.store .txRxControl (packSetTxRxControl false)).Started := by
    rw [View.Started, View.value, View.store_self]
    exact Bool.false_ne_true
  by_cases hok : (s.stop firmware x).1 = true
  · obtain ⟨old, -, rfl⟩ := heffect.view_of_done hfresh trivial hok hview
    exact .inr (hstopped old)
  · rcases heffect.view_cases hview with hold | ⟨old, -, rfl⟩
    · exact .inl ⟨hold, Bool.eq_false_of_not_eq_true hok⟩
    · exact .inr (hstopped old)

/-- An ioctl is made while a file is open, and then the interface is down. -/
theorem Inv.ioctl (hs : s.Inv firmware) (hfiles : s.files ≠ 0) {sys : ConfigSystem κ}
    (hwf : sys.Wf) : Inv firmware { s with toConfigSystem := sys } := by
  refine ⟨hwf, hs.counted, hs.noFiles, hs.net, fun hup => ?_⟩
  have hnet : s.channel.ifType ≠ .file := by
    rw [hs.net hup]
    decide
  exact absurd (hs.noFiles hnet) hfiles

/-- What happens while the interface is down and the users stay the same. -/
theorem Inv.of_down (hs : s.Inv firmware) (hwf : t.Wf) (hdown : t.netUp = false)
    (hchannel : t.channel = s.channel) (hfiles : t.files = s.files) : t.Inv firmware where
  wf := hwf
  counted := by rw [hchannel, hfiles, hs.counted]
  noFiles := by
    rw [hchannel, hfiles]
    exact hs.noFiles
  net hup := absurd hup (by simp [hdown])
  applied hup := absurd hup (by simp [hdown])

theorem Inv.files_of_up (hs : s.Inv firmware) (hup : s.netUp = true) : s.files = 0 :=
  hs.noFiles (by rw [hs.net hup]; decide)

theorem Inv.step (hconforms : firmware.Conforms) (hs : s.Inv firmware)
    (hstep : s.step firmware call = some t) : t.Inv firmware := by
  have houtcome := outcome_of_step hstep
  have honly := setsOnly_step hconforms hs.wf houtcome
  have hwf := honly.wf
  cases houtcome with
  | refused => exact hs
  | opened hne =>
      have hdown : s.netUp ≠ true := fun hup => hne (hs.net hup)
      refine ⟨hwf, ?_, fun hne => absurd rfl hne, fun hup => absurd hup hdown,
        fun hup => absurd hup hdown⟩
      simp [hs.counted]
  | closed hfiles =>
      have hfile : s.channel.ifType = .file := by
        by_contra hne
        exact hfiles (hs.noFiles hne)
      have hdown : s.netUp ≠ true := fun hup => hfiles (hs.files_of_up hup)
      have hcount := hs.counted
      by_cases hzero : s.channel.fileOpenCount - 1 = 0
      · rw [fileClose, if_pos hzero]
        refine ⟨hwf, ?_, fun _ => ?_, fun hup => absurd hup hdown, fun hup => absurd hup hdown⟩
        · dsimp only
          omega
        · dsimp only
          omega
      · rw [fileClose, if_neg hzero]
        refine ⟨hwf, ?_, fun hne => absurd hfile hne, fun hup => absurd hup hdown,
          fun hup => absurd hup hdown⟩
        dsimp only
        omega
  | set hfiles | bitrate hfiles | got hfiles | gotBitrate hfiles => exact hs.ioctl hfiles hwf
  | relinked hdown | bittiming hdown => exact hs.of_down hwf hdown rfl rfl
  | @up _ _ _ ok hdown hnone hrun =>
      cases ok with
      | false => exact hs.of_down hwf rfl rfl rfl
      | true =>
          have hfiles : s.files = 0 := hs.noFiles (by rw [hnone]; decide)
          refine ⟨hwf, hs.counted, fun _ => hfiles, fun _ => rfl, fun _ hfresh view hview _ => ?_⟩
          rcases ConfigSystem.netdevStart_cases hconforms hs.wf hrun hfresh hview with
            ⟨hfail, -⟩ | ⟨-, happlied⟩
          · cases hfail
          · exact happlied
  | @down x hup =>
      refine ⟨hwf, ?_, fun _ => hs.files_of_up hup, fun hup => Bool.noConfusion hup,
        fun hup => Bool.noConfusion hup⟩
      cases (s.stop firmware x).1 <;> exact hs.counted
  | @stuck x _ hup =>
      refine ⟨hwf, hs.counted, hs.noFiles, hs.net, fun _ hfresh view hview hstarted => ?_⟩
      rcases view_stop hconforms hs.wf x hfresh hview with ⟨hold, -⟩ | hstopped
      · exact hs.applied hup (honly.fresh hfresh) view hold hstarted
      · exact absurd hstarted hstopped
  | @restarted x _ _ ok hup hok hrun =>
      have hnet := hs.net hup
      have hwfStop := (setEffect_stop hconforms hs.wf x).wf
      refine ⟨hwf, ?_, fun _ => hs.files_of_up hup, fun _ => ?_,
        fun _ hfresh view hview hstarted => ?_⟩
      · cases ok <;> exact hs.counted
      · cases ok with
        | false => exact hnet
        | true => rfl
      · rcases ConfigSystem.netdevStart_cases hconforms hwfStop hrun hfresh hview with
          ⟨-, old, hold, hsame⟩ | ⟨-, happlied⟩
        · have hfreshStop := (ConfigSystem.setsOnly_netdevStart hconforms hwfStop hrun).fresh hfresh
          rcases view_stop hconforms hs.wf x hfreshStop hold with ⟨-, hfailed⟩ | hstopped
          · exact absurd (hfailed.symm.trans hok) Bool.false_ne_true
          · exact absurd (hsame.symm.trans hstarted) hstopped
        · exact happlied
  | @linked event =>
      refine ⟨hwf, hs.counted, hs.noFiles, hs.net, fun hup hfresh view hview => ?_⟩
      have hbelow := ConfigSystem.below_event hs.wf hconforms event
      exact hs.applied hup (honly.fresh hfresh) view
        (ConfigSystem.possible_subset hbelow.possible hview)

/-- An exchange whose request is sent. -/
def exchange (rounds : List LinkRound) : Exchange :=
  ⟨true, true, true, true, true, rounds, Msg.zero, Msg.zero⟩

end ConfigCalls

end Ep1Cf02a

end AptUsbtrx
