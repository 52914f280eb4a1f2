import AptUsbtrx.Model.StopInterface
import AptUsbtrx.Verification.Transmit.Flight

/-! # What a stop of the CAN interface drains

The stop waits until the thread has cleared the ring, and for one free slot of the four. -/

namespace AptUsbtrx

open Execution

namespace FlightSystem

variable {υ : Type} {s t : FlightSystem υ} {writeCmdId : UInt8} {bufferAddr b : ℕ} {l : FlightLabel}

/-- The frames in front of `b` have left the ring and the thread's hands. -/
structure Behind (b : ℕ) (s : FlightSystem υ) : Prop where
  left : b ≤ s.left
  hand : ∀ k, s.hand = some k → b ≤ k

/-- A step behind the frames in front of `b`: they are not submitted any more, and are in flight
until they complete. -/
structure BehindSpec (b : ℕ) (s : FlightSystem υ) (l : FlightLabel) (t : FlightSystem υ) :
    Prop where
  behind : Behind b t
  submitted : ∃ new, t.submitted = s.submitted ++ new ∧ ∀ k ∈ new, b ≤ k
  flight : ∀ k < b, k ∈ t.flight ↔ k ∈ s.flight ∧ l ≠ .complete k

theorem behindSpec_of_eq (h : Behind b s) {tx : TxSystem υ} (hpc : tx.pc = s.tx.pc)
    (hl : ∀ k, l ≠ .complete k) : BehindSpec b s l { s with tx := tx } where
  behind := ⟨h.left, fun k hk => h.hand k (by rwa [hand, hpc] at hk)⟩
  submitted := ⟨[], (List.append_nil _).symm, nofun⟩
  flight k _ := (and_iff_left (hl k)).symm

theorem behindSpec_observe (h : Behind b s) (hle : s.left ≤ s.tx.accepted.length)
    {tx : TxSystem υ} {event : FrameEvent} (hspec : s.tx.FrameSpec event tx)
    (hl : ∀ k, l ≠ .complete k) : BehindSpec b s l (s.observe tx event) := by
  have hleft : s.left ≤ event.left s.tx.accepted.length s.left := by
    cases event with
    | clear => exact hle
    | take => exact Nat.le_succ _
    | submit | keep => exact Nat.le_refl _
  have hhand (k : ℕ) (hk : (s.observe tx event).hand = some k) : b ≤ k := by
    by_cases hpc : tx.pc.inHand = true
    · rw [hand_of_inHand hpc] at hk
      obtain rfl := Option.some.inj hk
      rcases hspec.inHand hpc with ⟨rfl, hs⟩ | rfl
      · exact h.hand _ (hand_of_inHand hs)
      · exact h.left
    · rw [hand_of_not_inHand (Bool.not_eq_true _ ▸ hpc)] at hk
      cases hk
  by_cases hevent : event = .submit
  · obtain ⟨-, buffer, msgLength, hs, -⟩ := hspec.submit hevent
    have hlast : b ≤ s.left - 1 := h.hand _ (hand_of_inHand (by rw [hs]; rfl))
    refine ⟨⟨h.left.trans hleft, hhand⟩, ⟨[s.left - 1], ?_, ?_⟩, fun k hk => ?_⟩
    · simp only [observe, if_pos hevent]
    · intro k hk
      rw [List.mem_singleton.mp hk]
      exact hlast
    · simp only [observe, if_pos hevent, List.mem_append, List.mem_singleton,
        and_iff_left (hl k), or_iff_left (show ¬ k = s.left - 1 by omega)]
  · refine ⟨⟨h.left.trans hleft, hhand⟩, ⟨[], ?_, by simp⟩, fun k _ => ?_⟩
    · simp only [observe, if_neg hevent]
    · simp only [observe, if_neg hevent, List.append_nil, and_iff_left (hl k)]

theorem Behind.step (h : Behind b s) (hserved : Served s)
    (hstep : s.step writeCmdId bufferAddr l = some t) : BehindSpec b s l t := by
  cases l with
  | complete j =>
      simp only [FlightSystem.step] at hstep
      split at hstep
      case isFalse => cases hstep
      case isTrue hj =>
        obtain ⟨tx, htx, rfl⟩ := Option.map_eq_some_iff.mp hstep
        obtain ⟨p, -, hnumbered⟩ := hserved
        rw [TxSystem.step] at htx
        split at htx
        case isFalse => cases htx
        case isTrue =>
          cases htx
          refine ⟨⟨h.left, h.hand⟩, ⟨[], (List.append_nil _).symm, by simp⟩, fun k _ => ?_⟩
          rw [hnumbered.nodup.mem_erase_iff, and_comm, ne_eq, ne_eq, FlightLabel.complete.injEq,
            eq_comm]
  | tx label =>
      cases label with
      | writeBulkCallback => cases hstep
      | thread choice =>
          obtain ⟨tx, htx, rfl⟩ := Option.map_eq_some_iff.mp hstep
          exact behindSpec_observe h hserved.left_le (TxSystem.frameSpec_thread htx) (by simp)
      | write payload payloadSize msg =>
          cases hstep
          exact behindSpec_of_eq h rfl (by simp)
      | requestClear | atomicSet =>
          cases hstep
          exact behindSpec_of_eq h rfl (by simp)

end FlightSystem

/-- The thread clears the ring. -/
def TxPc.clearing : TxPc → Bool
  | clear | cleared => true
  | _ => false

namespace TxSystem

variable {υ : Type} {s t : TxSystem υ} {bufferAddr : ℕ}

/-- The request to clear the ring across a step of the thread. -/
structure ClearSpec (s t : TxSystem υ) : Prop where
  requested : t.dev.txDataClearRequested =
    if s.pc = .cleared then false else s.dev.txDataClearRequested
  clear : t.pc = .clear → s.pc = .top ∧ s.dev.txDataClearRequested = true
  cleared : t.pc = .cleared → s.pc = .clear

theorem clearSpec_of_not_clearing (hs : s.pc.clearing = false) (ht : t.pc.clearing = false)
    (hrequested : t.dev.txDataClearRequested = s.dev.txDataClearRequested) : ClearSpec s t where
  requested := by
    have hpc : s.pc ≠ .cleared := fun h => Bool.false_ne_true (hs.symm.trans (h ▸ rfl))
    rw [if_neg hpc, hrequested]
  clear h := absurd (ht.symm.trans (h ▸ rfl)) Bool.false_ne_true
  cleared h := absurd (ht.symm.trans (h ▸ rfl)) Bool.false_ne_true

theorem clearSpec_thread {choice : Bool} (h : s.thread bufferAddr choice = some t) :
    ClearSpec s t := by
  cases threadStep_of h with
  | toClear hpc hrequested => exact ⟨by simp [hpc], fun _ => ⟨hpc, hrequested⟩, by simp⟩
  | clear hpc => exact ⟨by simp [hpc], by simp, fun _ => hpc⟩
  | cleared hpc => exact ⟨by simp [hpc], by simp, by simp⟩
  | stop hpc | toWait hpc | enabled hpc | timeout hpc | interrupted hpc | down hpc =>
      exact clearSpec_of_not_clearing (by rw [hpc]; rfl) rfl rfl
  | noToken hpc htokens | hasToken hpc htokens =>
      refine clearSpec_of_not_clearing (by rw [hpc]; rfl) rfl ?_
      rw [htokens]
      cases choice <;> rfl
  | header hpc =>
      rw [header]
      dsimp only
      split
      all_goals exact clearSpec_of_not_clearing (by rw [hpc]; rfl) rfl rfl
  | body hpc =>
      rw [body]
      dsimp only
      repeat' split
      all_goals exact clearSpec_of_not_clearing (by rw [hpc]; rfl) rfl rfl
  | submit hpc =>
      cases choice
      all_goals exact clearSpec_of_not_clearing (by rw [hpc]; rfl) rfl rfl

theorem writeTxRb_txDataClearRequested (writeCmdId : UInt8) (dev : Dev υ) (payload : List UInt8)
    (payloadSize : UInt8) (msg : Msg) :
    (writeTxRb writeCmdId dev payload payloadSize msg).2.txDataClearRequested =
      dev.txDataClearRequested := by
  rw [writeTxRb]
  dsimp only
  repeat' split
  all_goals rfl

end TxSystem

namespace FlightSystem

variable {υ : Type} {s t : FlightSystem υ} {writeCmdId : UInt8} {bufferAddr : ℕ} {l : FlightLabel}

/-- A step of others than the thread. -/
structure QuietSpec (s t : FlightSystem υ) : Prop where
  pc : t.tx.pc = s.tx.pc
  requested : t.tx.dev.txDataClearRequested = s.tx.dev.txDataClearRequested
  accepted : s.tx.accepted.length ≤ t.tx.accepted.length

theorem quietSpec_step (hclear : l ≠ .tx .requestClear)
    (hthread : ∀ choice, l ≠ .tx (.thread choice))
    (hstep : s.step writeCmdId bufferAddr l = some t) : QuietSpec s t := by
  cases l with
  | complete k =>
      simp only [FlightSystem.step, TxSystem.step] at hstep
      split at hstep
      case isFalse => cases hstep
      split at hstep
      case isTrue.isFalse => cases hstep
      case isTrue.isTrue =>
        cases hstep
        exact ⟨rfl, rfl, Nat.le_refl _⟩
  | tx label =>
      cases label with
      | writeBulkCallback => cases hstep
      | thread choice => exact absurd rfl (hthread choice)
      | requestClear => exact absurd rfl hclear
      | atomicSet =>
          cases hstep
          exact ⟨rfl, rfl, Nat.le_refl _⟩
      | write payload payloadSize msg =>
          cases hstep
          refine ⟨rfl, TxSystem.writeTxRb_txDataClearRequested .., ?_⟩
          simp only [TxSystem.write]
          split
          · rw [List.length_append]
            exact Nat.le_add_right _ _
          · exact Nat.le_refl _

end FlightSystem

namespace Ep1Cf02a

namespace StopSystem

variable {υ : Type} {s t : StopSystem υ} {bufferAddr : ℕ} {l : StopLabel}

def requested (s : StopSystem υ) : Bool := s.tx.dev.txDataClearRequested

/-- The caller gets past the loop's first test only when the ring has been cleared. -/
structure Sound (s : StopSystem υ) : Prop where
  served : s.flight.Served
  before_le : s.before ≤ s.tx.accepted.length
  found : s.pc ≠ .probeClear → s.requested = false
  calm : s.requested = false → s.tx.pc ≠ .clear ∧ s.tx.pc ≠ .cleared

theorem sound_start {dev : Dev υ} (hw : dev.txData.Wf) (hempty : dev.txData.queue = [])
    (hroom : dev.txData.endPtr + cmdMaxLength < 2 ^ 64) (hclear : dev.txDataClearRequested = false)
    (maxToken : ℤ) : Sound (start dev maxToken) where
  served := FlightSystem.served_start hw hempty hroom maxToken
  before_le := Nat.zero_le _
  found _ := hclear
  calm _ := ⟨nofun, nofun⟩

/-- Steps of the transmit path. -/
theorem Sound.flight (h : Sound s) (haddr : bufferAddr ≠ 0)
    (hstack : bufferAddr + cmdMaxLength < 2 ^ 64) {label : FlightLabel}
    (hclear : label ≠ .tx .requestClear) {flight : FlightSystem υ}
    (hstep : s.flight.step cmdSendCANFrame bufferAddr label = some flight) :
    Sound { s with flight := flight } := by
  have hserved := h.served.step haddr hstack hstep
  by_cases hthread : ∃ choice, label = .tx (.thread choice)
  · obtain ⟨choice, rfl⟩ := hthread
    obtain ⟨tx, htx, rfl⟩ := Option.map_eq_some_iff.mp hstep
    have hspec := TxSystem.clearSpec_thread htx
    have hframes := TxSystem.frameSpec_thread htx
    refine ⟨hserved, ?_, fun hpc => ?_, fun hrequested => ⟨fun htop => ?_, fun hcleared => ?_⟩⟩
    · exact h.before_le.trans_eq (congrArg List.length hframes.accepted.symm)
    · refine hspec.requested.trans ?_
      rw [show s.flight.tx.dev.txDataClearRequested = false from h.found hpc, ite_self]
    · obtain ⟨hpc, hclear⟩ := hspec.clear htop
      have hkept := hspec.requested
      rw [if_neg (by rw [hpc]; exact nofun), hclear] at hkept
      exact Bool.false_ne_true (hrequested.symm.trans hkept)
    · have hpc := hspec.cleared hcleared
      have hkept := hspec.requested
      rw [if_neg (by rw [hpc]; exact nofun)] at hkept
      exact (h.calm (hkept.symm.trans hrequested)).1 hpc
  · have hspec := FlightSystem.quietSpec_step hclear (fun choice heq => hthread ⟨choice, heq⟩) hstep
    refine ⟨hserved, h.before_le.trans hspec.accepted,
      fun hpc => hspec.requested.trans (h.found hpc), fun hrequested => ?_⟩
    have hcalm := h.calm (hspec.requested.symm.trans hrequested)
    exact ⟨fun hpc => hcalm.1 (hspec.pc.symm.trans hpc),
      fun hpc => hcalm.2 (hspec.pc.symm.trans hpc)⟩

theorem step_flight {label : FlightLabel} (h : s.step bufferAddr (.flight label) = some t) :
    label ≠ .tx .requestClear ∧ ∃ flight,
      s.flight.step cmdSendCANFrame bufferAddr label = some flight ∧
        t = { s with flight := flight } := by
  by_cases hclear : label = .tx .requestClear
  · rw [hclear] at h
    cases h
  · have hstep : (s.flight.step cmdSendCANFrame bufferAddr label).map
        (fun flight => { s with flight := flight }) = some t := by
      rw [← h, StopSystem.step]
      exact hclear
    obtain ⟨flight, hflight, rfl⟩ := Option.map_eq_some_iff.mp hstep
    exact ⟨hclear, flight, hflight, rfl⟩

/-- A statement of the caller: it takes or gives a slot, and gets past its first test only when no
clear is requested. -/
structure CallerSpec (s t : StopSystem υ) : Prop where
  flight : ∃ sem, t.flight = { s.flight with tx := { s.flight.tx with usbTransferSem := sem } }
  before : t.before = s.before
  called : s.pc ≠ .idle
  goesOn : t.pc ≠ .idle
  found : t.pc ≠ .probeClear → s.pc ≠ .probeClear ∨ s.requested = false

theorem callerSpec_advance (hstep : s.advance = some t) : CallerSpec s t := by
  rw [StopSystem.advance] at hstep
  cases hpc : s.pc with
  | idle | sent =>
      rw [hpc] at hstep
      cases hstep
  | probeClear =>
      rw [hpc] at hstep
      dsimp only at hstep
      split at hstep
      case isTrue =>
        cases hstep
        exact ⟨⟨_, rfl⟩, rfl, by simp [hpc], by simp [hpc], fun h => absurd hpc h⟩
      case isFalse hrequested =>
        cases hstep
        exact ⟨⟨_, rfl⟩, rfl, by simp [hpc], by simp [setPc],
          fun _ => .inr (Bool.not_eq_true _ ▸ hrequested)⟩
  | probe =>
      rw [hpc] at hstep
      dsimp only at hstep
      split at hstep
      all_goals
        cases hstep
        exact ⟨⟨_, rfl⟩, rfl, by simp [hpc], by simp [setPc], fun _ => .inl (by simp [hpc])⟩
  | probeUp | send =>
      rw [hpc] at hstep
      cases hstep
      exact ⟨⟨_, rfl⟩, rfl, by simp [hpc], by simp [setPc], fun _ => .inl (by simp [hpc])⟩

theorem CallerSpec.requested (h : CallerSpec s t) : t.requested = s.requested := by
  obtain ⟨sem, hflight⟩ := h.flight
  rw [StopSystem.requested, tx, hflight]
  rfl

theorem CallerSpec.thread (h : CallerSpec s t) : t.tx.pc = s.tx.pc := by
  obtain ⟨sem, hflight⟩ := h.flight
  rw [tx, hflight]
  rfl

theorem CallerSpec.sound (hspec : CallerSpec s t) (h : Sound s) : Sound t := by
  obtain ⟨sem, hflight⟩ := hspec.flight
  refine ⟨?_, ?_, fun hpc => ?_, ?_⟩
  · rw [hflight]
    exact h.served.of_eq rfl rfl rfl rfl rfl
  · rw [hspec.before, tx, hflight]
    exact h.before_le
  · rw [hspec.requested]
    rcases hspec.found hpc with hpast | hfound
    · exact h.found hpast
    · exact hfound
  · rw [hspec.requested, hspec.thread]
    exact h.calm

theorem Sound.step (h : Sound s) (haddr : bufferAddr ≠ 0)
    (hstack : bufferAddr + cmdMaxLength < 2 ^ 64) (hstep : s.step bufferAddr l = some t) :
    Sound t := by
  cases l with
  | advance => exact (callerSpec_advance hstep).sound h
  | stopCanInterface =>
      rw [StopSystem.step] at hstep
      split at hstep
      case isFalse => cases hstep
      case isTrue =>
        cases hstep
        exact ⟨h.served.of_eq rfl rfl rfl rfl rfl, Nat.le_refl _, fun hpc => absurd rfl hpc,
          fun hrequested => nomatch hrequested⟩
  | flight label =>
      obtain ⟨hclear, flight, hflight, rfl⟩ := step_flight hstep
      exact h.flight haddr hstack hclear hflight

/-- The thread has cleared the ring since the call. -/
def Cleared (s : StopSystem υ) : Prop :=
  s.pc ≠ .idle ∧ (s.requested = false ∨ s.tx.pc = .cleared)

theorem clear_of_cleared (h : Sound s) (hs : ¬ Cleared s) (hstep : s.step bufferAddr l = some t)
    (ht : Cleared t) :
    s.pc ≠ .idle ∧ s.tx.pc = .clear ∧ ∃ choice, l = .flight (.tx (.thread choice)) := by
  obtain ⟨hpc, hrequested⟩ := ht
  cases l with
  | advance =>
      have hcaller := callerSpec_advance hstep
      rw [hcaller.requested, hcaller.thread] at hrequested
      exact absurd ⟨hcaller.called, hrequested⟩ hs
  | stopCanInterface =>
      rw [StopSystem.step] at hstep
      split at hstep
      case isFalse => cases hstep
      case isTrue hidle =>
        cases hstep
        have hcalm := h.calm (h.found (by rw [hidle]; exact nofun))
        exact (hrequested.elim (nomatch ·) fun hcleared => hcalm.2 hcleared).elim
  | flight label =>
      obtain ⟨hclear, flight, hflight, rfl⟩ := step_flight hstep
      by_cases hthread : ∃ choice, label = .tx (.thread choice)
      · obtain ⟨choice, rfl⟩ := hthread
        obtain ⟨tx, htx, rfl⟩ := Option.map_eq_some_iff.mp hflight
        have hspec := TxSystem.clearSpec_thread htx
        have hne : s.flight.tx.pc ≠ .cleared := fun h => hs ⟨hpc, .inr h⟩
        refine ⟨hpc, ?_, choice, rfl⟩
        rcases hrequested with hrequested | hcleared
        · have hkept := hspec.requested
          rw [if_neg hne] at hkept
          exact absurd ⟨hpc, .inl (hkept.symm.trans hrequested)⟩ hs
        · exact hspec.cleared hcleared
      · have hspec := FlightSystem.quietSpec_step hclear (fun choice heq => hthread ⟨choice, heq⟩)
          hflight
        refine absurd ⟨hpc, hrequested.imp (fun h => ?_) fun h => ?_⟩ hs
        · exact hspec.requested.symm.trans h
        · exact hspec.pc.symm.trans h

/-- The clear leaves nothing of what was queued in front of the call. -/
theorem behind_of_clear (h : Sound s) (hpc : s.tx.pc = .clear) {choice : Bool}
    (hstep : s.step bufferAddr (.flight (.tx (.thread choice))) = some t) :
    FlightSystem.Behind s.before t.flight ∧ t.flight.flight = s.flight.flight ∧
      t.before = s.before ∧ t.pc = s.pc := by
  obtain ⟨-, flight, hflight, rfl⟩ := step_flight hstep
  obtain ⟨tx, htx, rfl⟩ := Option.map_eq_some_iff.mp hflight
  have hevent : s.flight.tx.frameEvent bufferAddr choice = .clear := by
    rw [TxSystem.frameEvent, show s.flight.tx.pc = .clear from hpc]
  have hspec := TxSystem.frameSpec_thread htx
  rw [hevent] at hspec
  refine ⟨⟨?_, fun k hk => ?_⟩, ?_, rfl, rfl⟩
  · simp only [FlightSystem.observe, hevent]
    exact h.before_le
  · rw [hevent] at hk
    have hhand : tx.pc.inHand = false := by
      refine Bool.not_eq_true _ ▸ fun hin => ?_
      rcases hspec.inHand hin with ⟨hkeep, -⟩ | htake
      · cases hkeep
      · cases htake
    rw [FlightSystem.hand_of_not_inHand hhand] at hk
    cases hk
  · simp only [FlightSystem.observe, hevent]
    exact List.append_nil _

/-- Once the ring is cleared, frames queued in front of the call are not submitted any more, and
those in flight are so until they complete. -/
structure SettledSpec (s : StopSystem υ) (ls : List StopLabel) (t : StopSystem υ) : Prop where
  pc : t.pc ≠ .idle
  before : t.before = s.before
  behind : FlightSystem.Behind t.before t.flight
  submitted : ∃ new, t.flight.submitted = s.flight.submitted ++ new ∧ ∀ k ∈ new, s.before ≤ k
  flight : ∀ k < s.before, k ∈ t.flight.flight ↔
    k ∈ s.flight.flight ∧ .flight (.complete k) ∉ ls

theorem settledSpec_step (h : Sound s) (hpc : s.pc ≠ .idle)
    (hbehind : FlightSystem.Behind s.before s.flight) (hstep : s.step bufferAddr l = some t) :
    SettledSpec s [l] t := by
  cases l with
  | stopCanInterface =>
      rw [StopSystem.step, if_neg hpc] at hstep
      cases hstep
  | advance =>
      have hcaller := callerSpec_advance hstep
      obtain ⟨sem, hflight⟩ := hcaller.flight
      refine ⟨hcaller.goesOn, hcaller.before, ?_, ⟨[], ?_, by simp⟩, fun k _ => ?_⟩
      · rw [hcaller.before, hflight]
        exact ⟨hbehind.left, hbehind.hand⟩
      · rw [hflight, List.append_nil]
      · simp [hflight]
  | flight label =>
      obtain ⟨-, flight, hflight, rfl⟩ := step_flight hstep
      have hspec := hbehind.step h.served hflight
      refine ⟨hpc, rfl, hspec.behind, hspec.submitted, fun k hk => ?_⟩
      rw [hspec.flight k hk, List.mem_singleton, StopLabel.flight.injEq, ne_eq, eq_comm]

theorem settledSpec_exec (haddr : bufferAddr ≠ 0) (hstack : bufferAddr + cmdMaxLength < 2 ^ 64)
    {ls : List StopLabel} (h : Sound s) (hpc : s.pc ≠ .idle)
    (hbehind : FlightSystem.Behind s.before s.flight)
    (hexec : exec (step bufferAddr) s ls = some t) : SettledSpec s ls t := by
  induction ls generalizing s with
  | nil =>
      simp only [exec_nil, Option.some.injEq] at hexec
      subst hexec
      exact ⟨hpc, rfl, hbehind, ⟨[], (List.append_nil _).symm, nofun⟩, by simp⟩
  | cons l ls ih =>
      obtain ⟨u, hu, hrest⟩ := Option.bind_eq_some_iff.mp hexec
      have hone := settledSpec_step h hpc hbehind hu
      have hmany := ih (h.step haddr hstack hu) hone.pc hone.behind hrest
      obtain ⟨new, hnew, hlater⟩ := hone.submitted
      obtain ⟨more, hmore, hlater'⟩ := hmany.submitted
      refine ⟨hmany.pc, hmany.before.trans hone.before, hmany.behind, ⟨new ++ more, ?_, ?_⟩,
        fun k hk => ?_⟩
      · rw [hmore, hnew, List.append_assoc]
      · rw [hone.before] at hlater'
        intro k hk
        rcases List.mem_append.mp hk with hk | hk
        · exact hlater k hk
        · exact hlater' k hk
      · rw [hmany.flight k (hone.before ▸ hk), hone.flight k hk, and_assoc, List.mem_singleton,
          List.mem_cons, not_or]

/-- No frame queued in front of the call is in the ring, in the thread's hands or in flight, or is
submitted later. -/
structure Drained (bufferAddr : ℕ) (s : StopSystem υ) : Prop where
  behind : FlightSystem.Behind s.before s.flight
  flight : ∀ k ∈ s.flight.flight, s.before ≤ k
  later : ∀ ls t, exec (step bufferAddr) s ls = some t →
    ∃ new, t.flight.submitted = s.flight.submitted ++ new ∧ ∀ k ∈ new, s.before ≤ k

/-- When the command is sent the thread has cleared the ring since the call. The frames queued in
front of the call are drained exactly if the URBs of those in flight at the clear have all
completed since. -/
theorem stop_drains_iff {dev : Dev υ} (hw : dev.txData.Wf) (hempty : dev.txData.queue = [])
    (hroom : dev.txData.endPtr + cmdMaxLength < 2 ^ 64) (hclear : dev.txDataClearRequested = false)
    (haddr : bufferAddr ≠ 0) (hstack : bufferAddr + cmdMaxLength < 2 ^ 64) {maxToken : ℤ}
    {ls : List StopLabel} (hrun : exec (step bufferAddr) (start dev maxToken) ls = some s)
    (hsend : s.pc = .send) :
    ∃ before choice after u, ls = before ++ .flight (.tx (.thread choice)) :: after ∧
      exec (step bufferAddr) (start dev maxToken) before = some u ∧ u.pc ≠ .idle ∧
      u.tx.pc = .clear ∧ s.flight.Served ∧
      (Drained bufferAddr s ↔
        ∀ k ∈ u.flight.flight, k < s.before → .flight (.complete k) ∈ after) := by
  have hstart := sound_start hw hempty hroom hclear maxToken
  have hsound : Sound s :=
    exec_invariant (I := Sound) (fun _ _ _ h hstep => h.step haddr hstack hstep) hstart hrun
  have hcleared : Cleared s :=
    ⟨by rw [hsend]; exact nofun, .inl (hsound.found (by rw [hsend]; exact nofun))⟩
  obtain ⟨before, l, after, u, v, rfl, hu, hsu, -, ⟨hpc, hclear, choice, rfl⟩, hv, hafter⟩ :=
    exec_split_of (I := Sound) (P := Cleared) (fun _ _ _ h hstep => h.step haddr hstack hstep)
      (fun _ _ _ h hs hstep ht => clear_of_cleared h hs hstep ht) hstart (fun h => h.1 rfl) hrun
      hcleared
  obtain ⟨hbehind, hflight, hbefore, hvpc⟩ := behind_of_clear hsu hclear hv
  have hspec := settledSpec_exec haddr hstack (hsu.step haddr hstack hv) (hvpc ▸ hpc)
    (hbefore ▸ hbehind) hafter
  refine ⟨before, choice, after, u, rfl, hu, hpc, hclear, hsound.served, ?_⟩
  have hin (k : ℕ) (hk : k < s.before) := hspec.flight k (hspec.before ▸ hk)
  rw [hflight] at hin
  constructor
  · intro hdrained k hk hlt
    by_contra hnot
    have hle := hdrained.flight k ((hin k hlt).mpr ⟨hk, hnot⟩)
    omega
  · intro hcompleted
    refine ⟨hspec.behind, fun k hk => ?_, fun ls t hexec => ?_⟩
    · by_contra hlt
      rw [Nat.not_le] at hlt
      obtain ⟨hku, hnot⟩ := (hin k hlt).mp hk
      exact hnot (hcompleted k hku hlt)
    · exact (settledSpec_exec haddr hstack hsound hspec.pc hspec.behind hexec).submitted

/-- The thread submits a frame. -/
def submitOne : List StopLabel :=
  [.flight (.tx (.atomicSet false false 0)), .flight (.tx (.write [0x01] 1 Msg.zero)),
    .flight (.tx (.thread false)), .flight (.tx (.thread true)), .flight (.tx (.thread true)),
    .flight (.tx (.thread false)), .flight (.tx (.thread false)), .flight (.tx (.thread false)),
    .flight (.tx (.thread false)), .flight (.tx (.thread true))]

/-- The stop finds the ring cleared and a free slot. -/
def stopAcross (between : List StopLabel) : List StopLabel :=
  submitOne ++ [.stopCanInterface, .flight (.tx (.thread false)), .flight (.tx (.thread false)),
    .flight (.tx (.thread false))] ++ between ++ [.advance, .advance, .advance]

/-- The URB completes before the command is sent. -/
theorem stop_drains_iff_completed :
    ∃ s : StopSystem Unit, exec (step 0x40000000) (start TxSystem.smallDev 10)
        (stopAcross [.flight (.complete 0)]) = some s ∧
      s.pc = .send ∧ ∃ before choice after u,
        stopAcross [.flight (.complete 0)] = before ++ .flight (.tx (.thread choice)) :: after ∧
        exec (step 0x40000000) (start TxSystem.smallDev 10) before = some u ∧
        (Drained 0x40000000 s ↔
          ∀ k ∈ u.flight.flight, k < s.before → .flight (.complete k) ∈ after) := by
  have hrun : (exec (step 0x40000000) (start TxSystem.smallDev 10)
      (stopAcross [.flight (.complete 0)])).map StopSystem.pc = some .send := by
    decide +kernel
  obtain ⟨s, hs, hsend⟩ := Option.map_eq_some_iff.mp hrun
  obtain ⟨before, choice, after, u, hls, hu, -, -, -, hiff⟩ := stop_drains_iff
    (wf_ringbufferInit (by decide) (by decide)) (queue_ringbufferInit _ _) (by decide) rfl
    (by decide) (by decide) hs hsend
  exact ⟨s, hs, hsend, before, choice, after, u, hls, hu, hiff⟩

/-- The URB is one of four that may be in flight, and its slot is not the one that the stop finds
free. -/
theorem stop_not_drained :
    ¬ ∀ (ls : List StopLabel) (s : StopSystem Unit),
      exec (step 0x40000000) (start TxSystem.smallDev 10) ls = some s → s.pc = .send →
        Drained 0x40000000 s := by
  intro h
  have hrun : (exec (step 0x40000000) (start TxSystem.smallDev 10) (stopAcross [])).map
      (fun s => (s.pc, s.before, s.flight.flight)) = some (.send, 1, [0]) := by
    decide +kernel
  obtain ⟨s, hs, heq⟩ := Option.map_eq_some_iff.mp hrun
  obtain ⟨hsend, heq⟩ := Prod.mk.inj heq
  obtain ⟨hbefore, hflight⟩ := Prod.mk.inj heq
  have hle := (h _ s hs hsend).flight 0 (hflight ▸ List.mem_singleton_self 0)
  omega

end StopSystem

end Ep1Cf02a

end AptUsbtrx
