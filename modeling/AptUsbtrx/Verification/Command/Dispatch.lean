import AptUsbtrx.Model.Ep1Cf02a
import AptUsbtrx.Verification.Command.Wait

/-! # What the dispatcher does to the completion

A message either signals the completion of the requests with one id or leaves the
completion alone. Everything else that the receive path needs is untouched. -/

namespace AptUsbtrx

open Memory

/-- A device kind as the commands see it: its dispatcher, the request id that each of its
message ids completes, and the commands the driver sends to it. -/
structure Protocol (υ : Type) where
  dispatch : Dispatch (Dev υ)
  requestOf : UInt8 → Option UInt8
  commands : List Command
  rxComplete_eq : ∀ dev data msg, (dispatch dev data msg).1.rxComplete =
    if requestOf msg.id = some dev.rxComplete.id then dev.rxComplete.complete data msg
    else dev.rxComplete
  rxTransfer_eq : ∀ dev data msg, (dispatch dev data msg).1.rxTransfer = dev.rxTransfer
  rxOngoing_eq : ∀ dev data msg, (dispatch dev data msg).1.rxOngoing = dev.rxOngoing
  onclosing_eq : ∀ dev data msg, (dispatch dev data msg).1.onclosing = dev.onclosing
  reqDataSize_bounds : ∀ c ∈ commands, cmdMinLength ≤ c.reqDataSize ∧ c.reqDataSize ≤ cmdMaxLength

/-- An ACK or NACK names the request it answers. -/
def Message.WellFormed (m : Message) : Prop := m.id = cmdACK ∨ m.id = cmdNACK → m.payload ≠ []

instance (m : Message) : Decidable m.WellFormed := inferInstanceAs (Decidable (_ → _))

namespace Protocol

variable {υ : Type} (P : Protocol υ)

/-- The id of the requests whose completion the message signals. -/
def request (m : Message) : Option UInt8 :=
  if m.id = cmdNotifyBufferStatus then none
  else if m.id = cmdResponseGetDeviceId ∨ m.id = cmdResponseGetSerialNo ∨
      m.id = cmdResponseGetFWVersion ∨ m.id = cmdResponseGetFWVersionRevision then
    getRequestCommandFromResponseCommand m.id
  else if m.id = cmdACK ∨ m.id = cmdNACK then some (byteAt m.payload 0)
  else P.requestOf m.id

/-- The completion after the message. -/
def signal (rx : RxComplete) (m : Message) : RxComplete :=
  if P.request m = some rx.id then rx.completed m else rx

theorem signal_id (rx : RxComplete) (m : Message) : (P.signal rx m).id = rx.id := by
  rw [signal]
  split <;> rfl

theorem full_signal {rx : RxComplete} (h : rx.Full) (m : Message) : (P.signal rx m).Full := by
  rw [signal]
  split
  · exact h.completed m
  · exact h

/-- The first payload byte of a nonempty message is that of the payload array. -/
theorem byteAt_payload {msg : Msg} (h : msg.bytes ≠ []) :
    byteAt msg.payload 0 = byteAt msg.bytes 0 := by
  have hpos : 0 < msg.payloadSize.toNat := by
    apply Nat.pos_of_ne_zero
    intro hzero
    exact h (by rw [Msg.bytes, hzero, List.take_zero])
  rw [Msg.bytes, byteAt_take hpos]

/-- What `apt_usbtrx_dispatch_msg` changes of the fields the receive path works on. -/
structure DispatchSpec (dev dev' : Dev υ) (m : Message) : Prop where
  rxComplete : dev'.rxComplete = P.signal dev.rxComplete m
  rxTransfer : dev'.rxTransfer = dev.rxTransfer
  rxOngoing : dev'.rxOngoing = dev.rxOngoing
  onclosing : dev'.onclosing = dev.onclosing

/-- The block that signals the completion if the request id fits. -/
theorem dispatchSpec_complete {dev dev' : Dev υ} {data : List UInt8} {msg : Msg}
    (hhanded : Handed data msg) (hcomplete : dev'.rxComplete = dev.rxComplete)
    (htransfer : dev'.rxTransfer = dev.rxTransfer) (hongoing : dev'.rxOngoing = dev.rxOngoing)
    (hclosing : dev'.onclosing = dev.onclosing) {c : Prop} [Decidable c]
    (hc : c ↔ P.request msg.message = some dev.rxComplete.id) :
    P.DispatchSpec dev
      (if c then ({ dev' with rxComplete := dev'.rxComplete.complete data msg }, Result.success)
      else (dev', Result.success)).1 msg.message := by
  by_cases h : c
  · rw [if_pos h]
    refine ⟨?_, htransfer, hongoing, hclosing⟩
    rw [signal, if_pos (hc.mp h), hcomplete]
    exact dev.rxComplete.complete_eq hhanded
  · rw [if_neg h]
    refine ⟨?_, htransfer, hongoing, hclosing⟩
    rw [signal, if_neg fun hreq => h (hc.mpr hreq), hcomplete]

theorem fields_of_basetime (dev : Dev υ) (time : Timespec64) (c : Prop) [Decidable c] :
    (if c then { dev with basetime := time } else dev).rxComplete = dev.rxComplete ∧
      (if c then { dev with basetime := time } else dev).rxTransfer = dev.rxTransfer ∧
      (if c then { dev with basetime := time } else dev).rxOngoing = dev.rxOngoing ∧
      (if c then { dev with basetime := time } else dev).onclosing = dev.onclosing := by
  by_cases h : c
  · rw [if_pos h]
    exact ⟨rfl, rfl, rfl, rfl⟩
  · rw [if_neg h]
    exact ⟨rfl, rfl, rfl, rfl⟩

theorem dispatchMsg_spec {dev : Dev υ} {data : List UInt8} {msg : Msg}
    (hongoing : dev.rxOngoing = true) (hhanded : Handed data msg)
    (hwf : msg.message.WellFormed) :
    P.DispatchSpec dev (dispatchMsg P.dispatch dev data msg).1 msg.message := by
  rw [dispatchMsg, if_neg (not_not_intro hongoing)]
  by_cases hstatus : msg.id = cmdNotifyBufferStatus
  · have hreq : P.request msg.message = none := by
      rw [request, Msg.message_id, if_pos hstatus]
    rw [if_pos hstatus]
    exact ⟨by rw [signal, hreq]; rfl, rfl, rfl, rfl⟩
  rw [if_neg hstatus]
  by_cases hbase : msg.id = cmdResponseGetDeviceId ∨ msg.id = cmdResponseGetSerialNo ∨
      msg.id = cmdResponseGetFWVersion ∨ msg.id = cmdResponseGetFWVersionRevision
  · have hreq : P.request msg.message = getRequestCommandFromResponseCommand msg.id := by
      rw [request, Msg.message_id, if_neg hstatus, if_pos hbase]
    rw [if_pos hbase]
    exact P.dispatchSpec_complete hhanded rfl rfl rfl rfl (by rw [hreq, eq_comm])
  rw [if_neg hbase]
  by_cases hack : msg.id = cmdACK ∨ msg.id = cmdNACK
  · have hreq : P.request msg.message = some (byteAt msg.payload 0) := by
      rw [request, Msg.message_id, if_neg hstatus, if_neg hbase, if_pos hack,
        byteAt_payload (hwf hack), Msg.message_payload]
    rw [if_pos hack]
    rw [show msgParseAck msg.payload = (.success, byteAt msg.payload 0) from rfl]
    dsimp only
    rw [if_neg (not_not_intro rfl)]
    -- an ACK to `ResetTS` changes the base time only
    obtain ⟨hcomplete, htransfer, hrxOngoing, hclosing⟩ := fields_of_basetime dev dev.resettime
      (byteAt msg.payload 0 = cmdResetTS ∧ msg.id = cmdACK)
    exact P.dispatchSpec_complete hhanded hcomplete htransfer hrxOngoing hclosing
      (by rw [hreq, hcomplete, Option.some.injEq, eq_comm])
  · have hreq : P.request msg.message = P.requestOf msg.id := by
      rw [request, Msg.message_id, if_neg hstatus, if_neg hbase, if_neg hack]
    have hspec : P.DispatchSpec dev (P.dispatch dev data msg).1 msg.message :=
      ⟨by rw [signal, hreq, P.rxComplete_eq, dev.rxComplete.complete_eq hhanded],
        P.rxTransfer_eq _ _ _, P.rxOngoing_eq _ _ _, P.onclosing_eq _ _ _⟩
    rw [if_neg hack]
    generalize P.dispatch dev data msg = r at hspec
    obtain ⟨dev', result⟩ := r
    by_cases hresult : result = .success
    · simpa only [hresult, ne_eq, not_true_eq_false, if_false] using hspec
    · simpa only [hresult, ne_eq, not_false_eq_true, if_true] using hspec

end Protocol

end AptUsbtrx
