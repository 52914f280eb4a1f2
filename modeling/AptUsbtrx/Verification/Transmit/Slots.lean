import AptUsbtrx.Model.Slots
import AptUsbtrx.Shared.Execution
import AptUsbtrx.Shared.Semaphore
import AptUsbtrx.Verification.Transmit.Steps

/-! # The transfer slots are accounted for

Every slot of `tx_usb_transfer_sem` is free, in flight with a URB, or held by one thread. -/

namespace AptUsbtrx

open Execution

/-- The slots the transmit thread holds. -/
def TxPc.held : TxPc → ℕ
  | header | body .. | submit .. => 1
  | _ => 0

/-- The thread holds a slot without a URB in flight. -/
def SlotPc.Holds : SlotPc → Prop
  | fwPack _ | fwSubmit _ | fwUp | probeUp => True
  | _ => False

instance (pc : SlotPc) : Decidable pc.Holds := by
  cases pc <;> unfold SlotPc.Holds <;> infer_instance

namespace TxSystem

variable {υ : Type} {s s' : TxSystem υ} {bufferAddr : ℕ}

/-- The slots that the transmit path accounts for. -/
def slots (s : TxSystem υ) : ℕ := s.usbTransferSem + (s.urbs + s.pc.held)

/-- An error gives the thread's slot back. -/
theorem slots_giveUp (s : TxSystem υ) : s.giveUp.slots = s.usbTransferSem + (s.urbs + 1) := by
  simp only [slots, giveUp, TxPc.held]
  omega

theorem slots_header (s : TxSystem υ) (bufferAddr : ℕ) :
    (s.header bufferAddr).slots = s.usbTransferSem + (s.urbs + 1) := by
  simp only [header]
  split
  · rfl
  · rw [slots_giveUp]

theorem slots_body (s : TxSystem υ) (bufferAddr : ℕ) (buffer : List UInt8)
    (msgLength pos remain : ℕ) :
    (s.body bufferAddr buffer msgLength pos remain).slots =
      s.usbTransferSem + (s.urbs + 1) := by
  simp only [body]
  split
  · split
    · rw [slots_giveUp]
    · rfl
  · rfl

theorem slots_submit (s : TxSystem υ) (data : List UInt8) (ok : Bool) :
    (s.submit data ok).slots = s.usbTransferSem + (s.urbs + 1) := by
  cases ok with
  | true => rfl
  | false => exact slots_giveUp s

theorem slots_thread {choice : Bool} (h : s.thread bufferAddr choice = some s') :
    s'.slots = s.slots := by
  have hslots : ∀ n, s.pc.held = n → s.slots = s.usbTransferSem + (s.urbs + n) := by
    rintro n rfl
    rfl
  cases threadStep_of h with
  | stop hpc | toClear hpc | toWait hpc | clear hpc | cleared hpc | enabled hpc | timeout hpc
  | interrupted hpc =>
      rw [hslots 0 (by rw [hpc]; rfl)]
      rfl
  | noToken hpc htokens | hasToken hpc htokens =>
      rw [hslots 0 (by rw [hpc]; rfl), htokens]
      cases choice <;> rfl
  | down hpc hsem =>
      rw [hslots 0 (by rw [hpc]; rfl)]
      simp only [slots, TxPc.held]
      omega
  | header hpc =>
      rw [hslots 1 (by rw [hpc]; rfl)]
      exact slots_header s bufferAddr
  | body hpc =>
      rw [hslots 1 (by rw [hpc]; rfl)]
      exact slots_body s bufferAddr _ _ _ _
  | submit hpc =>
      rw [hslots 1 (by rw [hpc]; rfl)]
      exact slots_submit s _ choice

/-- Neither the thread nor a completion creates or loses a slot. -/
theorem slots_step {writeCmdId : UInt8} {label : TxLabel}
    (h : s.step writeCmdId bufferAddr label = some s') : s'.slots = s.slots := by
  cases label with
  | write payload payloadSize msg =>
      cases h
      rfl
  | requestClear | atomicSet onopening onclosing txBufferRate =>
      cases h
      rfl
  | writeBulkCallback =>
      simp only [step] at h
      split at h
      case isTrue hurbs =>
        cases h
        simp only [slots]
        omega
      case isFalse => cases h
  | thread choice => exact slots_thread h

end TxSystem

namespace SlotSystem

variable {υ ι : Type} {s s' : SlotSystem υ ι} {fwSize : ℕ}

/-- The semaphore counts the slots that are neither in flight nor held. -/
def Balanced (s : SlotSystem υ ι) : Prop :=
  Semaphore.Balanced maxTxUrbs s.tx.usbTransferSem (s.tx.urbs + s.tx.pc.held)
    fun i => (s.threads i).Holds

theorem balanced_start (dev : Dev υ) (transferMaxToken : ℤ) :
    (start dev transferMaxToken : SlotSystem υ ι).Balanced :=
  Semaphore.balanced_of_none (fun _ h => h) rfl

variable [DecidableEq ι] {i : ι}

/-- A thread goes on without touching the slots. -/
theorem Balanced.goto (h : s.Balanced) {pc : SlotPc} (hpc : pc.Holds ↔ (s.threads i).Holds) :
    (s.goto i pc).Balanced := Semaphore.update_stay h hpc rfl

theorem Balanced.down (h : s.Balanced) (hsem : 0 < s.tx.usbTransferSem) {pc : SlotPc}
    (hout : ¬ (s.threads i).Holds) (hpc : pc.Holds) : (s.down.goto i pc).Balanced := by
  refine Semaphore.update_take h hout hpc ?_
  simp only [SlotSystem.down, SlotSystem.goto]
  omega

theorem Balanced.up (h : s.Balanced) {pc : SlotPc} (hin : (s.threads i).Holds)
    (hpc : ¬ pc.Holds) : (s.up.goto i pc).Balanced := by
  refine Semaphore.update_give h hin hpc ?_
  simp only [SlotSystem.up, SlotSystem.goto]
  omega

/-- The slot goes with the URB. -/
theorem Balanced.submitted (h : s.Balanced) {pc : SlotPc} (hin : (s.threads i).Holds)
    (hpc : ¬ pc.Holds) : (s.submitted.goto i pc).Balanced := by
  refine Semaphore.update_give h hin hpc ?_
  simp only [SlotSystem.submitted, SlotSystem.goto]
  omega

theorem Balanced.advance (h : s.Balanced) {ok : Bool} {msg : Msg}
    (hstep : s.advance fwSize i ok msg = some s') : s'.Balanced := by
  rw [SlotSystem.advance] at hstep
  cases hpc : s.threads i with
  | idle ret =>
      simp only [hpc] at hstep
      cases hstep
  | fwDown payload =>
      have hout : ¬ (s.threads i).Holds := by rw [hpc]; exact not_false
      simp only [hpc] at hstep
      split at hstep
      case isTrue =>
        cases hstep
        exact h.goto (iff_of_false not_false hout)
      split at hstep
      case isFalse.isTrue hsem =>
        cases hstep
        exact h.down hsem hout trivial
      case isFalse.isFalse => cases hstep
  | fwPack payload =>
      have hin : (s.threads i).Holds := by rw [hpc]; trivial
      have hkept : Balanced { s with fwCount := (s.fwCount + 32) % 2 ^ 32 } := h
      simp only [hpc] at hstep
      split at hstep
      · cases hstep
        exact hkept.goto (iff_of_true trivial hin)
      · cases hstep
        exact hkept.goto (iff_of_true trivial hin)
  | fwSubmit data =>
      have hin : (s.threads i).Holds := by rw [hpc]; trivial
      simp only [hpc] at hstep
      split at hstep
      case isTrue =>
        cases hstep
        exact h.submitted hin not_false
      case isFalse =>
        cases hstep
        exact h.goto (iff_of_true trivial hin)
  | fwUp | probeUp =>
      have hin : (s.threads i).Holds := by rw [hpc]; trivial
      simp only [hpc] at hstep
      cases hstep
      exact h.up hin not_false
  | probeClear =>
      have hout : ¬ (s.threads i).Holds := by rw [hpc]; exact not_false
      simp only [hpc] at hstep
      split at hstep
      case isTrue =>
        cases hstep
        exact h
      case isFalse =>
        cases hstep
        exact h.goto (iff_of_false not_false hout)
  | probe =>
      have hout : ¬ (s.threads i).Holds := by rw [hpc]; exact not_false
      simp only [hpc] at hstep
      split at hstep
      case isTrue hsem =>
        cases hstep
        exact h.down hsem hout trivial
      case isFalse =>
        cases hstep
        exact h.goto (iff_of_false not_false hout)

variable {writeCmdId : UInt8} {bufferAddr : ℕ}

theorem Balanced.step (h : s.Balanced) {label : SlotLabel ι}
    (hstep : s.step writeCmdId bufferAddr fwSize label = some s') : s'.Balanced := by
  cases label with
  | tx label =>
      simp only [SlotSystem.step, Option.map_eq_some_iff] at hstep
      obtain ⟨tx, htx, rfl⟩ := hstep
      exact Semaphore.Balanced.shift h (TxSystem.slots_step htx)
  | writeFwData i payload copied =>
      simp only [SlotSystem.step] at hstep
      split at hstep
      case h_1 ret hpc =>
        have hout : ¬ (s.threads i).Holds := by rw [hpc]; exact not_false
        split at hstep
        all_goals
          cases hstep
          exact h.goto (iff_of_false not_false hout)
      case h_2 => cases hstep
  | stopCanInterface i =>
      simp only [SlotSystem.step] at hstep
      split at hstep
      case h_1 ret hpc =>
        have hout : ¬ (s.threads i).Holds := by rw [hpc]; exact not_false
        cases hstep
        exact Balanced.goto (s := { s with tx := { s.tx with dev :=
          { s.tx.dev with txDataClearRequested := true } } }) h (iff_of_false not_false hout)
      case h_2 => cases hstep
  | advance i ok msg => exact h.advance hstep

/-- In every run the free slots, the URBs in flight and the threads that hold a slot without a
URB are `MAX_TX_URBS` in all, so no more URBs than that are in flight. -/
theorem slots_accounted {dev : Dev υ} {transferMaxToken : ℤ} {labels : List (SlotLabel ι)}
    (h : exec (step writeCmdId bufferAddr fwSize) (start dev transferMaxToken) labels = some s) :
    (∃ holders : Finset ι, (∀ i, i ∈ holders ↔ (s.threads i).Holds) ∧
      s.tx.usbTransferSem + s.tx.urbs + (s.tx.pc.held + holders.card) = maxTxUrbs) ∧
    s.tx.urbs ≤ maxTxUrbs := by
  have hbalanced : s.Balanced :=
    exec_invariant (fun _ _ _ hs hstep => Balanced.step hs hstep)
      (balanced_start dev transferMaxToken) h
  refine ⟨?_, ?_⟩
  · obtain ⟨holders, hmem, hsum⟩ := hbalanced
    exact ⟨holders, hmem, by omega⟩
  · have hle := Semaphore.Balanced.free_add_lent_le hbalanced
    omega

/-- A write of firmware data whose URB is not submitted, and a stop of the interface. -/
def failedWriteRun : List (SlotLabel Bool) :=
  [.tx (.atomicSet false false 0), .writeFwData true (List.replicate 32 0) true,
    .advance true true Msg.zero, .advance true true Msg.zero, .stopCanInterface false,
    .tx (.thread false), .tx (.thread false), .tx (.thread false), .advance false true Msg.zero,
    .advance false true Msg.zero, .advance true false Msg.zero, .advance true true Msg.zero]

/-- An opened unit. -/
def idleDev : Dev Unit := Dev.probed 0x10000000 4096 0x20000000 ⟨0, 0⟩ ()

theorem slots_accounted_failedWriteRun : ∃ s : SlotSystem Unit Bool,
    exec (step 0 0x7000 0) (start idleDev 4) failedWriteRun = some s ∧
      ∃ holders : Finset Bool, (∀ i, i ∈ holders ↔ (s.threads i).Holds) ∧
        s.tx.usbTransferSem + s.tx.urbs + (s.tx.pc.held + holders.card) = maxTxUrbs := by
  have hrun : (exec (step 0 0x7000 0) (start idleDev 4) failedWriteRun).isSome = true := by
    decide +kernel
  obtain ⟨s, hs⟩ := Option.isSome_iff_exists.mp hrun
  exact ⟨s, hs, (slots_accounted hs).1⟩

end SlotSystem

end AptUsbtrx
