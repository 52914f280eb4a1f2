import AptUsbtrx.Model.Ownership
import AptUsbtrx.Shared.Execution
import AptUsbtrx.Shared.Semaphore

/-! # Users of a channel at the same time

The channel has one owner, or files only, as long as no step of another user comes between a check
and the write that relies on it. -/

namespace AptUsbtrx

open Execution

/-- The file is counted in `file_open_count`. -/
def FilePc.Counts : FilePc → Prop
  | counted | opened => True
  | _ => False

/-- The file is behind the `atomic_dec` of `close`. -/
def FilePc.Releasing : FilePc → Prop
  | closing | last => True
  | _ => False

/-- The interface has set `if_type` and has neither reset it nor failed to stop. -/
def OtherPc.Owns : OtherPc → Prop
  | up | stopping _ | preenabled | postenabling _ | failing | enabled | disabled
  | postdisabling true => True
  | _ => False

namespace ChannelSystem

variable {κ ι : Type} {kind : ChannelKind κ} {s t : ChannelSystem κ ι} {i : ι}

/-- Never two owners of different kinds, and never two files on a channel for one. -/
def SingleOwner (kind : ChannelKind κ) (s : ChannelSystem κ ι) : Prop :=
  (∀ i, s.files i = .opened → ¬ s.other.Owns) ∧
    (kind.sharedFile = false → ∀ i j, s.files i = .opened → s.files j = .opened → i = j)

/-- `if_type` names the owner and `file_open_count` is the number of the files. -/
structure Sound (kind : ChannelKind κ) (s : ChannelSystem κ ι) : Prop where
  file : ∀ i, s.files i = .opened → s.ifType = kind.file
  other : s.other.Owns → s.ifType = kind.other
  single : kind.sharedFile = false → ∀ i j, s.files i = .opened → s.files j = .opened → i = j
  count : kind.sharedFile = true → ∃ n : ℕ, s.fileOpenCount = n ∧
    Semaphore.Balanced n 0 0 fun i => (s.files i).Counts
  releasing : ∀ i, (s.files i).Releasing → kind.sharedFile = true

namespace Sound

theorem singleOwner (h : Sound kind s) : s.SingleOwner kind := by
  refine ⟨?_, h.single⟩
  intro i hi howns
  exact kind.file_ne_other ((h.file i hi).symm.trans (h.other howns))

theorem not_opened_of_none (h : Sound kind s) (hnone : s.ifType = kind.none) (i : ι) :
    s.files i ≠ .opened := fun hi => kind.none_ne_file (hnone.symm.trans (h.file i hi))

theorem not_opened_of_owns (h : Sound kind s) (howns : s.other.Owns) (i : ι) :
    s.files i ≠ .opened := fun hi => h.singleOwner.1 i hi howns

/-- The interface goes on and keeps or loses the channel. -/
theorem goOn (h : Sound kind s) {other : OtherPc} (howns : other.Owns → s.other.Owns) :
    Sound kind { s with other := other } :=
  ⟨h.file, fun ho => h.other (howns ho), h.single, h.count, h.releasing⟩

/-- `if_type` is written while no file is open. -/
theorem write (h : Sound kind s) (hfree : ∀ i, s.files i ≠ .opened) {ifType : κ}
    {other : OtherPc} (howns : other.Owns → ifType = kind.other) :
    Sound kind { s with ifType := ifType, other := other } :=
  ⟨fun i hi => absurd hi (hfree i), howns, h.single, h.count, h.releasing⟩

/-- No file is open when none is counted. -/
theorem not_opened_of_zero (h : Sound kind s) (hshared : kind.sharedFile = true)
    (hzero : s.fileOpenCount = 0) (j : ι) : s.files j ≠ .opened := by
  intro hj
  obtain ⟨n, hn, hbalanced⟩ := h.count hshared
  have hcounts : (s.files j).Counts := by
    rw [hj]
    trivial
  have hpos := hbalanced.lt_of_holds hcounts
  omega

end Sound

theorem sound_start (kind : ChannelKind κ) : Sound kind (start kind : ChannelSystem κ ι) where
  file _ := by rintro ⟨⟩
  other := False.elim
  single _ _ _ := by rintro ⟨⟩
  count _ := ⟨0, rfl, Semaphore.balanced_of_none (fun _ => False.elim) rfl⟩
  releasing _ := False.elim

/-! ### The interface -/

section

variable [DecidableEq κ]

/-- A write of `if_type` is not disturbed: where a call has checked the channel, the check would
still let it through, and where a call gives up a channel that it does not own any more, no other
user has come. -/
def Undisturbed (kind : ChannelKind κ) (s : ChannelSystem κ ι) : ChannelLabel ι → Prop
  | .fileNext i =>
      match s.files i with
      | .opening => kind.sharedFile = true ∨ openAllowed kind s.ifType = true
      | .counted => openAllowed kind s.ifType = true
      | .last => s.fileOpenCount = 0 ∧ s.ifType ≠ kind.other
      | _ => True
  | .otherNext _ _ =>
      match s.other with
      | .starting [] | .preenabling => s.ifType = kind.none
      | .postdisabling false => s.ifType ≠ kind.file
      | _ => True
  | _ => True

/-- The check of `open` finds no interface that owns the channel, and for one file no file. -/
theorem Sound.free_of_openAllowed (h : Sound kind s) (hallowed : openAllowed kind s.ifType = true) :
    ¬ s.other.Owns ∧ (kind.sharedFile = false → ∀ j, s.files j ≠ .opened) := by
  rw [openAllowed] at hallowed
  cases hshared : kind.sharedFile with
  | true =>
      rw [if_pos hshared, decide_eq_true_iff] at hallowed
      refine ⟨fun howns => hallowed (h.other howns), ?_⟩
      rintro ⟨⟩
  | false =>
      rw [if_neg (by rw [hshared]; decide), decide_eq_true_iff] at hallowed
      refine ⟨fun howns => ?_, fun _ => h.not_opened_of_none hallowed⟩
      exact kind.none_ne_other (hallowed.symm.trans (h.other howns))

/-- A step of the interface. -/
theorem Sound.otherNext (h : Sound kind s) {ok stopped : Bool}
    (hundisturbed : Undisturbed kind s (.otherNext ok stopped))
    (hstep : s.otherNext kind ok stopped = some t) : Sound kind t := by
  rw [ChannelSystem.otherNext] at hstep
  have howns (other : OtherPc) (hpc : s.other = other) (ho : other.Owns) : s.other.Owns := hpc ▸ ho
  cases hpc : s.other with
  | down | up | enabled =>
      rw [hpc] at hstep
      cases hstep
  | starting cmds =>
      cases cmds with
      | nil =>
          simp only [hpc] at hstep
          cases hstep
          simp only [Undisturbed, hpc] at hundisturbed
          exact h.write (h.not_opened_of_none hundisturbed) fun _ => rfl
      | cons cmd cmds =>
          simp only [hpc] at hstep
          cases hstep
          apply h.goOn
          split
          · exact False.elim
          · exact False.elim
  | stopping cmds =>
      cases cmds with
      | nil =>
          simp only [hpc] at hstep
          cases hstep
          exact h.write (h.not_opened_of_owns (howns _ hpc trivial)) False.elim
      | cons cmd cmds =>
          simp only [hpc] at hstep
          split at hstep
          case isTrue =>
            cases hstep
            exact h.goOn False.elim
          case isFalse =>
            split at hstep
            all_goals
              cases hstep
              exact h.goOn fun _ => howns _ hpc trivial
  | preenabling =>
      simp only [hpc] at hstep
      cases hstep
      simp only [Undisturbed, hpc] at hundisturbed
      exact h.write (h.not_opened_of_none hundisturbed) fun _ => rfl
  | preenabled =>
      simp only [hpc] at hstep
      cases hstep
      exact h.goOn fun _ => howns _ hpc trivial
  | postenabling cmds =>
      cases cmds with
      | nil | cons =>
          simp only [hpc] at hstep
          cases hstep
          exact h.goOn fun _ => howns _ hpc trivial
  | failing =>
      simp only [hpc] at hstep
      cases hstep
      exact h.write (h.not_opened_of_owns (howns _ hpc trivial)) False.elim
  | failed =>
      simp only [hpc] at hstep
      cases hstep
      apply h.goOn
      split
      · exact False.elim
      · exact False.elim
  | disabled =>
      simp only [hpc] at hstep
      cases hstep
      exact h.goOn fun _ => howns _ hpc trivial
  | postdisabling owns =>
      simp only [hpc] at hstep
      cases hstep
      cases owns with
      | true => exact h.write (h.not_opened_of_owns (howns _ hpc trivial)) False.elim
      | false =>
          simp only [Undisturbed, hpc] at hundisturbed
          exact h.write (fun j hj => hundisturbed (h.file j hj)) False.elim

end

/-! ### The files -/

variable [DecidableEq ι]

theorem files_goto (s : ChannelSystem κ ι) (i : ι) (pc : FilePc) :
    (s.goto i pc).files = Function.update s.files i pc := rfl

/-- A file that is open after another step of a file was open before. -/
theorem opened_of_goto {pc : FilePc} (hpc : pc ≠ .opened) {j : ι}
    (hj : (s.goto i pc).files j = .opened) : j ≠ i ∧ s.files j = .opened := by
  have hne : j ≠ i := by
    rintro rfl
    rw [files_goto, Function.update_self] at hj
    exact hpc hj
  rw [files_goto, Function.update_of_ne hne] at hj
  exact ⟨hne, hj⟩

theorem releasing_of_goto (pc : FilePc) (hpc : ¬ pc.Releasing) {j : ι}
    (hj : ((s.goto i pc).files j).Releasing) : (s.files j).Releasing := by
  rw [files_goto] at hj
  by_cases hne : j = i
  · rw [hne, Function.update_self] at hj
    exact absurd hj hpc
  · rwa [Function.update_of_ne hne] at hj

namespace Sound

/-- A file goes on and is neither opened nor closed. -/
theorem stay (h : Sound kind s) {pc : FilePc} (hpc : pc ≠ .opened)
    (hcounts : pc.Counts ↔ (s.files i).Counts)
    (hshared : pc.Releasing → kind.sharedFile = true) : Sound kind (s.goto i pc) where
  file j hj := h.file j (opened_of_goto hpc hj).2
  other := h.other
  single hshared j k hj hk :=
    h.single hshared j k (opened_of_goto hpc hj).2 (opened_of_goto hpc hk).2
  count hshared := by
    obtain ⟨n, hn, hbalanced⟩ := h.count hshared
    exact ⟨n, hn, Semaphore.update_stay hbalanced hcounts rfl⟩
  releasing j hj := by
    by_cases hpc : pc.Releasing
    · exact hshared hpc
    · exact h.releasing j (releasing_of_goto pc hpc hj)

/-- `atomic_inc` -/
theorem inc (h : Sound kind s) (hout : ¬ (s.files i).Counts) :
    Sound kind ({ s with fileOpenCount := s.fileOpenCount + 1 }.goto i .counted) where
  file j hj := h.file j (opened_of_goto (by decide) hj).2
  other := h.other
  single hshared j k hj hk :=
    h.single hshared j k (opened_of_goto (by decide) hj).2 (opened_of_goto (by decide) hk).2
  count hshared := by
    obtain ⟨n, hn, hbalanced⟩ := h.count hshared
    refine ⟨n + 1, ?_, ?_⟩
    · simp [goto, hn]
    · exact Semaphore.update_take ((Semaphore.Balanced.add_iff 1).mpr hbalanced) hout trivial rfl
  releasing j hj := h.releasing j (releasing_of_goto .counted not_false hj)

/-- `atomic_dec` -/
theorem dec (h : Sound kind s) (hshared : kind.sharedFile = true) (hin : s.files i = .opened) :
    Sound kind ({ s with fileOpenCount := s.fileOpenCount - 1 }.goto i .closing) where
  file j hj := h.file j (opened_of_goto (by decide) hj).2
  other := h.other
  single hshared j k hj hk :=
    h.single hshared j k (opened_of_goto (by decide) hj).2 (opened_of_goto (by decide) hk).2
  count hshared := by
    obtain ⟨n, hn, hbalanced⟩ := h.count hshared
    have hcounts : (s.files i).Counts := by
      rw [hin]
      trivial
    have hpos := hbalanced.lt_of_holds hcounts
    obtain ⟨m, rfl⟩ := Nat.exists_eq_add_one.mpr (Nat.zero_lt_of_lt hpos)
    refine ⟨m, ?_, ?_⟩
    · simp [goto, hn]
    · exact (Semaphore.Balanced.add_iff 1).mp
        (Semaphore.update_give hbalanced hcounts not_false rfl)
  releasing _ _ := hshared

/-- `if_type` is set for a file while the interface does not own the channel. -/
theorem claim (h : Sound kind s) (hother : ¬ s.other.Owns)
    (hexclusive : kind.sharedFile = false → ∀ j, s.files j ≠ .opened)
    (hcounts : kind.sharedFile = true → (s.files i).Counts) :
    Sound kind ({ s with ifType := kind.file }.goto i .opened) where
  file _ _ := rfl
  other howns := absurd howns hother
  single hshared j k hj hk := by
    have hself (l : ι) (hl : (s.goto i .opened).files l = .opened) : l = i := by
      by_contra hne
      rw [files_goto, Function.update_of_ne hne] at hl
      exact hexclusive hshared l hl
    rw [hself j hj, hself k hk]
  count hshared := by
    obtain ⟨n, hn, hbalanced⟩ := h.count hshared
    exact ⟨n, hn, Semaphore.update_stay hbalanced (iff_of_true trivial (hcounts hshared)) rfl⟩
  releasing j hj := h.releasing j (releasing_of_goto .opened not_false hj)

/-- `if_type` is reset when the last file is closed. -/
theorem release (h : Sound kind s) (hother : ¬ s.other.Owns)
    (hfree : ∀ j, j ≠ i → s.files j ≠ .opened)
    (hcounts : kind.sharedFile = true → ¬ (s.files i).Counts) :
    Sound kind ({ s with ifType := kind.none }.goto i .closed) where
  file j hj := absurd (opened_of_goto (by decide) hj).2 (hfree j (opened_of_goto (by decide) hj).1)
  other howns := absurd howns hother
  single _ j _ hj _ :=
    absurd (opened_of_goto (by decide) hj).2 (hfree j (opened_of_goto (by decide) hj).1)
  count hshared := by
    obtain ⟨n, hn, hbalanced⟩ := h.count hshared
    exact ⟨n, hn, Semaphore.update_stay hbalanced
      (iff_of_false not_false (hcounts hshared)) rfl⟩
  releasing j hj := h.releasing j (releasing_of_goto .closed not_false hj)

end Sound

/-! ### The steps -/

variable [DecidableEq κ]

/-- A step of a file. -/
theorem Sound.fileNext (h : Sound kind s) (hundisturbed : Undisturbed kind s (.fileNext i))
    (hstep : s.fileNext kind i = some t) : Sound kind t := by
  rw [ChannelSystem.fileNext] at hstep
  cases hpc : s.files i with
  | closed | opened =>
      rw [hpc] at hstep
      cases hstep
  | opening =>
      have hout : ¬ (s.files i).Counts := by
        rw [hpc]
        exact not_false
      simp only [hpc] at hstep
      split at hstep
      case isTrue =>
        cases hstep
        exact h.inc hout
      case isFalse hexclusive =>
        cases hstep
        simp only [Undisturbed, hpc] at hundisturbed
        obtain ⟨hother, hfree⟩ := h.free_of_openAllowed (hundisturbed.resolve_left hexclusive)
        exact h.claim hother hfree fun hshared => absurd hshared hexclusive
  | counted =>
      have hin : (s.files i).Counts := by
        rw [hpc]
        trivial
      simp only [hpc] at hstep
      cases hstep
      simp only [Undisturbed, hpc] at hundisturbed
      obtain ⟨hother, hfree⟩ := h.free_of_openAllowed hundisturbed
      exact h.claim hother hfree fun _ => hin
  | closing =>
      simp only [hpc] at hstep
      cases hstep
      have hshared : kind.sharedFile = true := h.releasing i (by rw [hpc]; trivial)
      split
      · exact h.stay (by decide) (by rw [hpc]; exact Iff.rfl) fun _ => hshared
      · exact h.stay (by decide) (by rw [hpc]; exact Iff.rfl) fun _ => hshared
  | last =>
      simp only [hpc] at hstep
      cases hstep
      simp only [Undisturbed, hpc] at hundisturbed
      obtain ⟨hzero, hne⟩ := hundisturbed
      have hshared : kind.sharedFile = true := h.releasing i (by rw [hpc]; trivial)
      refine h.release (fun howns => hne (h.other howns)) ?_ ?_
      · exact fun j _ => h.not_opened_of_zero hshared hzero j
      · intro _
        rw [hpc]
        exact not_false

theorem Sound.step (h : Sound kind s) {label : ChannelLabel ι}
    (hundisturbed : Undisturbed kind s label) (hstep : s.step kind label = some t) :
    Sound kind t := by
  cases label with
  | fileOpen i =>
      simp only [ChannelSystem.step] at hstep
      split at hstep
      case isTrue => cases hstep
      case isFalse hclosed =>
        have hpc : s.files i = .closed := not_not.mp hclosed
        split at hstep
        all_goals cases hstep
        · exact h.stay (by decide) (by rw [hpc]; exact Iff.rfl) False.elim
        · exact h
  | fileNext i => exact h.fileNext hundisturbed hstep
  | fileClose i =>
      simp only [ChannelSystem.step] at hstep
      split at hstep
      case isTrue => cases hstep
      case isFalse hopened =>
        have hpc : s.files i = .opened := not_not.mp hopened
        split at hstep
        case isTrue hshared =>
          cases hstep
          exact h.dec hshared hpc
        case isFalse hexclusive =>
          cases hstep
          refine h.release (h.singleOwner.1 i hpc) ?_ fun hshared => absurd hshared hexclusive
          intro j hne hj
          exact hne (h.single (Bool.eq_false_of_not_eq_true hexclusive) j i hj hpc)
  | otherOpen ok =>
      simp only [ChannelSystem.step] at hstep
      repeat' split at hstep
      all_goals
        first
        | cases hstep; exact h
        | cases hstep; exact h.goOn False.elim
        | cases hstep
  | otherNext ok stopped => exact h.otherNext hundisturbed hstep
  | otherClose =>
      simp only [ChannelSystem.step] at hstep
      split at hstep
      case h_1 hpc | h_2 hpc =>
        cases hstep
        apply h.goOn
        intro _
        rw [hpc]
        trivial
      case h_3 => cases hstep
  | disconnect =>
      cases hstep
      exact ⟨h.file, h.other, h.single, h.count, h.releasing⟩

/-- In every run whose writes of `if_type` are not disturbed the channel has one owner. -/
theorem singleOwner_of_undisturbed {labels : List (ChannelLabel ι)}
    (hrun : exec (step kind) (start kind) labels = some s)
    (hundisturbed : AllSteps (step kind) (Undisturbed kind) (start kind) labels) :
    s.SingleOwner kind :=
  (exec_invariant_of_allSteps (fun _ _ _ h hc hstep => Sound.step h hc hstep) (sound_start kind)
    hundisturbed hrun).singleOwner

/-! ### A race and an undisturbed run -/

instance (kind : ChannelKind κ) (s : ChannelSystem κ ι) (label : ChannelLabel ι) :
    Decidable (Undisturbed kind s label) := by
  unfold Undisturbed
  repeat' split
  all_goals infer_instance

/-- `open` checks an EP1-CF02A, the interface is brought up, and `open` goes on. -/
def raceRun : List (ChannelLabel Unit) :=
  [.fileOpen (), .otherOpen true] ++ List.replicate 7 (.otherNext true false) ++
    [.fileNext (), .fileNext ()]

theorem raceRun_two_owners : ∃ s : ChannelSystem Ep1Cf02a.IfType Unit,
    exec (step (Ep1Cf02a.channelKind false)) (start (Ep1Cf02a.channelKind false)) raceRun = some s ∧
      s.files () = .opened ∧ s.other = .up ∧ ¬ s.SingleOwner (Ep1Cf02a.channelKind false) := by
  have hrun : (exec (step (Ep1Cf02a.channelKind false)) (start (Ep1Cf02a.channelKind false))
      raceRun).any (fun s => s.files () = .opened ∧ s.other = .up) = true := by decide +kernel
  obtain ⟨s, hs, hstate⟩ := (Option.any_eq_true _ _).mp hrun
  obtain ⟨hfile, hup⟩ := of_decide_eq_true hstate
  refine ⟨s, hs, hfile, hup, ?_⟩
  rintro ⟨hkinds, -⟩
  apply hkinds () hfile
  rw [hup]
  trivial

/-- Two files are opened and closed, then the interface is brought up. -/
def turnsRun : List (ChannelLabel Bool) :=
  [.fileOpen true, .fileOpen false, .fileNext true, .fileNext false, .fileNext false,
    .fileNext true, .fileClose true, .fileNext true, .fileClose false, .fileNext false,
    .fileNext false, .otherOpen true] ++ List.replicate 7 (.otherNext true false)

theorem singleOwner_of_undisturbed_turnsRun : ∃ s : ChannelSystem Ep1Cf02a.IfType Bool,
    exec (step (Ep1Cf02a.channelKind false)) (start (Ep1Cf02a.channelKind false)) turnsRun =
        some s ∧ s.SingleOwner (Ep1Cf02a.channelKind false) := by
  have hrun : (exec (step (Ep1Cf02a.channelKind false)) (start (Ep1Cf02a.channelKind false))
      turnsRun : Option (ChannelSystem Ep1Cf02a.IfType Bool)).isSome = true := by decide +kernel
  obtain ⟨s, hs⟩ := Option.isSome_iff_exists.mp hrun
  exact ⟨s, hs, singleOwner_of_undisturbed hs (by decide +kernel)⟩

end ChannelSystem

end AptUsbtrx
