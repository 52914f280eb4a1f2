import AptUsbtrx.Model.UnitLink
import AptUsbtrx.Verification.Command.Ep1Cf02a
import AptUsbtrx.Verification.Transmit.Transmission

/-! # The link to the unit

What may still become of a setting while requests and answers are under way. -/

namespace AptUsbtrx

open Memory

namespace Ep1Cf02a

/-! ### Frames -/

theorem hasId_frame {cmdId id : UInt8} {payload : List UInt8} :
    HasId cmdId (frame id payload) ↔ id = cmdId := Iff.rfl

theorem framePayload_frame (id : UInt8) (payload : List UInt8) :
    framePayload (frame id payload) = payload := by
  rw [framePayload, frame, slice]
  simp

theorem frame_inj {id id' : UInt8} {payload payload' : List UInt8}
    (h : frame id payload = frame id' payload') : id = id' ∧ payload = payload' := by
  refine ⟨congrArg (byteAt · 2) h, ?_⟩
  rw [← framePayload_frame id payload, h, framePayload_frame]

theorem Setting.reqCmdId_inj {setting other : Setting}
    (h : setting.command.reqCmdId = other.command.reqCmdId) : setting = other := by
  cases setting <;> cases other <;> first | rfl | exact absurd h (by decide)

theorem Readable.reqCmdId_inj {r other : Readable}
    (h : r.getCmd.command.reqCmdId = other.getCmd.command.reqCmdId) : r = other := by
  cases r with
  | value setting =>
      cases other with
      | value setting' =>
          cases setting <;> cases setting' <;> first | rfl | exact absurd h (by decide)
      | canClock | resetTime | storeDataState =>
          cases setting <;> exact absurd h (by decide)
  | canClock | resetTime | storeDataState =>
      cases other with
      | value setting => cases setting <;> exact absurd h (by decide)
      | canClock | resetTime | storeDataState => first | rfl | exact absurd h (by decide)

theorem reqCmdId_ne (setting : Setting) (r : Readable) :
    setting.command.reqCmdId ≠ r.getCmd.command.reqCmdId := by
  cases r with
  | value setting' => cases setting <;> cases setting' <;> decide
  | canClock | resetTime | storeDataState => cases setting <;> decide

/-! ### The unit -/

/-- What a unit reports the same until it is set. A clock runs, and the state of the store and the
time stamps change by themselves. -/
def Readable.Kept : Readable → Prop
  | .value .rtcTime | .value .storeDataRxControl | .resetTime | .storeDataState => False
  | _ => True

/-- The payload of the set command is complete. -/
def Setting.Fits (setting : Setting) (payload : List UInt8) : Prop :=
  payload.length = msgLengthToPayload setting.command.reqDataSize

/-- The ACK or NACK that names the set command. -/
def Setting.answer (setting : Setting) (id : UInt8) : List UInt8 :=
  frame id [setting.command.reqCmdId]

/-- What the driver relies on. A get request is answered with a response and changes nothing. A set
request is answered with an ACK, and then the unit reports the payload that it was given, or with a
NACK, and then nothing has changed. Nothing else changes the settings. -/
structure Firmware.Conforms {κ : Type} (firmware : Firmware κ) : Prop where
  get (unit : κ) (r : Readable) : ∃ payload,
    (firmware.serve unit r.request).2 = frame r.getCmd.command.respCmdIdAck payload ∧
      payloadLengthToMsg payload.length = r.getCmd.command.respDataSize
  get_keeps (unit : κ) (r : Readable) {kept : Readable} : kept.Kept →
    firmware.report (firmware.serve unit r.request).1 kept = firmware.report unit kept
  set (unit : κ) {setting : Setting} {payload : List UInt8} : setting.Fits payload →
    (firmware.serve unit (setting.request payload)).2 = setting.answer cmdACK ∨
      (firmware.serve unit (setting.request payload)).2 = setting.answer cmdNACK
  set_stores (unit : κ) {setting : Setting} {payload : List UInt8} : setting.Fits payload →
    (Readable.value setting).Kept →
    (firmware.serve unit (setting.request payload)).2 = setting.answer cmdACK →
    firmware.report (firmware.serve unit (setting.request payload)).1 (.value setting) = payload
  set_refuses (unit : κ) {setting : Setting} {payload : List UInt8} : setting.Fits payload →
    (firmware.serve unit (setting.request payload)).2 = setting.answer cmdNACK →
    ∀ kept : Readable, kept.Kept →
      firmware.report (firmware.serve unit (setting.request payload)).1 kept =
        firmware.report unit kept
  set_keeps (unit : κ) {setting : Setting} {payload : List UInt8} : setting.Fits payload →
    ∀ kept : Readable, kept.Kept → kept ≠ .value setting →
      firmware.report (firmware.serve unit (setting.request payload)).1 kept =
        firmware.report unit kept
  elapse_keeps (unit : κ) (n : ℕ) {kept : Readable} : kept.Kept →
    firmware.report (firmware.elapse unit n) kept = firmware.report unit kept

/-- A request of the driver. -/
inductive Known : List UInt8 → Prop where
  | set (setting : Setting) {payload : List UInt8} : setting.Fits payload →
      Known (setting.request payload)
  | get (r : Readable) : Known r.request

/-- An answer to the request. -/
inductive AnswerTo : List UInt8 → List UInt8 → Prop where
  | set (setting : Setting) (payload : List UInt8) {id : UInt8} : id = cmdACK ∨ id = cmdNACK →
      AnswerTo (setting.request payload) (setting.answer id)
  | get (r : Readable) {payload : List UInt8} :
      payloadLengthToMsg payload.length = r.getCmd.command.respDataSize →
      AnswerTo r.request (frame r.getCmd.command.respCmdIdAck payload)

section

variable {κ : Type} {firmware : Firmware κ} {unit : κ} {setting : Setting} {request : List UInt8}

theorem Firmware.Conforms.answerTo (h : firmware.Conforms) (hrequest : Known request) (unit : κ) :
    AnswerTo request (firmware.serve unit request).2 := by
  cases hrequest with
  | set setting hfits =>
      rcases h.set unit hfits with hack | hnack
      · rw [hack]
        exact .set setting _ (.inl rfl)
      · rw [hnack]
        exact .set setting _ (.inr rfl)
  | get r =>
      obtain ⟨payload, hanswer, hlength⟩ := h.get unit r
      rw [hanswer]
      exact .get r hlength

/-- A request of another command leaves the setting alone. -/
theorem Firmware.Conforms.report_serve (h : firmware.Conforms) (hrequest : Known request)
    {r : Readable} (hkept : r.Kept)
    (hother : ∀ setting, r = .value setting → ¬ HasId setting.command.reqCmdId request) :
    firmware.report (firmware.serve unit request).1 r = firmware.report unit r := by
  cases hrequest with
  | set setting hfits =>
      exact h.set_keeps unit hfits r hkept fun heq => hother setting heq rfl
  | get other => exact h.get_keeps unit other hkept

end

/-! ### The dispatcher -/

theorem uniqueData_dispatchMsg (dev : Dev UniqueData) (data : List UInt8) {msg : Msg}
    (hstore : msg.id ≠ cmdNotifyStoreDataRecvCanFrame)
    (hcomplete : msg.id ≠ cmdNotifyStoreDataRecvCanFrameComplete) :
    (AptUsbtrx.dispatchMsg dispatchMsg dev data msg).1.uniqueData = dev.uniqueData := by
  have hunit : (dispatchMsg dev data msg).1.uniqueData = dev.uniqueData := by
    rw [dispatchMsg, if_neg hstore, if_neg hcomplete]
    split
    case isTrue =>
      split
      all_goals rfl
    case isFalse =>
      split
      case h_1 requestId _ =>
        rw [dispatchMsgCommonResponse]
        split
        all_goals rfl
      case h_2 => rfl
  rw [AptUsbtrx.dispatchMsg]
  split
  case isTrue => rfl
  case isFalse =>
    split
    case isTrue =>
      dsimp only
      split
      all_goals rfl
    case isFalse =>
      split
      case isTrue =>
        split
        all_goals rfl
      case isFalse =>
        split
        case isTrue =>
          dsimp only
          split
          case isTrue => rfl
          case isFalse =>
            split
            all_goals
              split
              all_goals rfl
        case isFalse =>
          dsimp only
          split
          all_goals exact hunit

/-- The message of an answer, and what the dispatcher takes it for. -/
theorem AnswerTo.exists_message {request bytes : List UInt8} (h : AnswerTo request bytes) :
    ∃ m : Message, bytes = m.encode ∧ m.WellFormed ∧
      protocol.request m = some (byteAt request 2) ∧ m.id ≠ cmdNotifyStoreDataRecvCanFrame ∧
      m.id ≠ cmdNotifyStoreDataRecvCanFrameComplete := by
  cases h with
  | @set setting payload id hid =>
      have hone : [setting.command.reqCmdId].length ≤ maxPayload := by simp [maxPayload]
      have hack : cmdACK ≠ cmdNotifyStoreDataRecvCanFrame ∧
          cmdACK ≠ cmdNotifyStoreDataRecvCanFrameComplete := by decide
      have hnack : cmdNACK ≠ cmdNotifyStoreDataRecvCanFrame ∧
          cmdNACK ≠ cmdNotifyStoreDataRecvCanFrameComplete := by decide
      refine ⟨⟨id, [setting.command.reqCmdId], hone⟩, rfl, fun _ => List.cons_ne_nil _ _, ?_⟩
      rcases hid with rfl | rfl
      · exact ⟨rfl, hack⟩
      · exact ⟨rfl, hnack⟩
  | @get r payload hlength =>
      have hbound : payload.length ≤ maxPayload := by
        have hle : r.getCmd.command.respDataSize ≤ cmdMaxLength := by
          cases r with
          | value setting => cases setting <;> decide
          | canClock | resetTime | storeDataState => decide
        simp only [payloadLengthToMsg, cmdMaxLength, maxPayload] at *
        omega
      have hids : r.getCmd.command.respCmdIdAck ≠ cmdACK ∧
          r.getCmd.command.respCmdIdAck ≠ cmdNACK ∧
          r.getCmd.command.respCmdIdAck ≠ cmdNotifyStoreDataRecvCanFrame ∧
          r.getCmd.command.respCmdIdAck ≠ cmdNotifyStoreDataRecvCanFrameComplete := by
        cases r with
        | value setting => cases setting <;> decide
        | canClock | resetTime | storeDataState => decide
      have hrequest : protocol.request ⟨r.getCmd.command.respCmdIdAck, payload, hbound⟩ =
          some r.getCmd.command.reqCmdId := by
        cases r with
        | value setting => cases setting <;> rfl
        | canClock | resetTime | storeDataState => rfl
      exact ⟨⟨_, payload, hbound⟩, rfl, fun hack => (hack.elim hids.1 hids.2.1).elim, hrequest,
        hids.2.2.1, hids.2.2.2⟩

/-! ### What may become of a setting -/

/-- What the unit reports, or may report once it has taken the requests that wait. -/
def Link.possible {κ : Type} (firmware : Firmware κ) (link : Link κ) (r : Readable) :
    Set (List UInt8) :=
  { payload | payload = firmware.report link.unit r ∨
    ∃ setting, r = .value setting ∧ setting.request payload ∈ link.requests }

namespace ConfigSystem

variable {κ : Type} {firmware : Firmware κ} {s t u : ConfigSystem κ}

/-- The reception is running, and there are requests of the driver and answers to such requests. -/
structure Wf (s : ConfigSystem κ) : Prop where
  rxOngoing : s.dev.rxOngoing = true
  full : s.dev.rxComplete.Full
  requests : ∀ request ∈ s.link.requests, Known request
  answers : ∀ answer ∈ s.link.answers, AnswerTo answer.request answer.bytes

/-- Nothing may become of `t` that may not become of `s`. -/
structure Below (firmware : Firmware κ) (s t : ConfigSystem κ) : Prop where
  possible : ∀ r : Readable, r.Kept → t.link.possible firmware r ⊆ s.link.possible firmware r
  uniqueData : t.dev.uniqueData = s.dev.uniqueData
  log : t.log = s.log
  id : t.dev.rxComplete.id = s.dev.rxComplete.id

theorem Below.refl (s : ConfigSystem κ) : Below firmware s s :=
  ⟨fun _ _ => subset_rfl, rfl, rfl, rfl⟩

theorem Below.trans (h : Below firmware s t) (h' : Below firmware t u) : Below firmware s u :=
  ⟨fun r hkept => (h'.possible r hkept).trans (h.possible r hkept),
    h'.uniqueData.trans h.uniqueData, h'.log.trans h.log, h'.id.trans h.id⟩

theorem report_mem_possible (link : Link κ) (r : Readable) :
    firmware.report link.unit r ∈ link.possible firmware r := .inl rfl

/-- Fewer requests may come to less. -/
theorem possible_subset_of_requests {link link' : Link κ} {r : Readable}
    (hreport : firmware.report link'.unit r = firmware.report link.unit r)
    (hrequests : link'.requests ⊆ link.requests) :
    link'.possible firmware r ⊆ link.possible firmware r := by
  rintro payload (rfl | ⟨setting, hr, hmem⟩)
  · exact .inl hreport
  · exact .inr ⟨setting, hr, hrequests hmem⟩

/-- The unit takes the first request. -/
theorem possible_serve (hconforms : firmware.Conforms) (unit : κ) {request : List UInt8}
    (requests : List (List UInt8)) (answers answers' : List Answer) (hrequest : Known request)
    {r : Readable} (hkept : r.Kept) :
    (Link.mk (firmware.serve unit request).1 requests answers').possible firmware r ⊆
      (Link.mk unit (request :: requests) answers).possible firmware r := by
  rintro payload (rfl | ⟨setting, hr, hmem⟩)
  · cases hrequest with
    | get other => exact .inl (hconforms.get_keeps unit other hkept)
    | @set setting payload hfits =>
        by_cases hr : r = .value setting
        · subst hr
          rcases hconforms.set unit hfits with hack | hnack
          · refine .inr ⟨setting, rfl, ?_⟩
            rw [hconforms.set_stores unit hfits hkept hack]
            exact List.mem_cons_self
          · exact .inl (hconforms.set_refuses unit hfits hnack _ hkept)
        · exact .inl (hconforms.set_keeps unit hfits r hkept hr)
  · exact .inr ⟨setting, hr, List.mem_cons_of_mem _ hmem⟩

/-- What an answer that arrives does: it signals the completion of its own command. -/
theorem receive_spec (hs : s.dev.rxOngoing = true) {request bytes : List UInt8}
    (hanswer : AnswerTo request bytes) :
    ∃ m : Message, bytes = m.encode ∧ (s.receive bytes).link = s.link ∧
      (s.receive bytes).log = s.log ∧ (s.receive bytes).dev.uniqueData = s.dev.uniqueData ∧
      (s.receive bytes).dev.rxOngoing = true ∧
      (s.receive bytes).dev.rxComplete =
        if HasId s.dev.rxComplete.id request then s.dev.rxComplete.completed m
        else s.dev.rxComplete := by
  obtain ⟨m, rfl, hwf, hrequest, hstore, hcomplete⟩ := hanswer.exists_message
  have hlength : m.encode.length = m.length := m.encode_length
  have hparse : (msgParse m.encode m.encode.length Msg.zero).1 = .success := by
    have hfst := msgParse_encode_fst m [] Msg.zero (Nat.le_of_eq hlength.symm)
    rwa [List.append_nil] at hfst
  obtain ⟨hhanded, -⟩ := handed_of_success le_rfl hparse
  have hmessage : (msgParse m.encode m.encode.length Msg.zero).2.message = m := by
    have hsnd := msgParse_encode m [] Msg.zero (Nat.le_of_eq hlength.symm)
    rwa [List.append_nil] at hsnd
  have hid : (msgParse m.encode m.encode.length Msg.zero).2.id = m.id :=
    congrArg Message.id hmessage
  rw [receive]
  generalize msgParse m.encode m.encode.length Msg.zero = parsed at hparse hhanded hmessage hid
  obtain ⟨result, msg⟩ := parsed
  dsimp only at hparse hhanded hmessage hid ⊢
  rw [if_neg (not_not.mpr hparse)]
  have hspec := protocol.dispatchMsg_spec hs hhanded (hmessage.symm ▸ hwf)
  refine ⟨m, rfl, rfl, rfl, ?_, hspec.rxOngoing.trans hs, ?_⟩
  · exact uniqueData_dispatchMsg s.dev m.encode (hid.symm ▸ hstore) (hid.symm ▸ hcomplete)
  · have hcompleted := hspec.rxComplete
    rw [hmessage, Protocol.signal, hrequest] at hcompleted
    simp only [Option.some.injEq] at hcompleted
    exact hcompleted

/-! ### Events -/

theorem Wf.event (hs : s.Wf) (hconforms : firmware.Conforms) (event : LinkEvent) :
    (s.event firmware event).Wf := by
  cases event with
  | serve =>
      rw [ConfigSystem.event]
      split
      case h_1 => exact hs
      case h_2 request requests hrequests =>
        have hknown := hs.requests
        rw [hrequests] at hknown
        obtain ⟨hhead, htail⟩ := List.forall_mem_cons.mp hknown
        refine ⟨hs.rxOngoing, hs.full, htail, fun answer hanswer => ?_⟩
        rcases List.mem_append.mp hanswer with hold | hnew
        · exact hs.answers answer hold
        · rw [List.mem_singleton.mp hnew]
          exact hconforms.answerTo hhead s.link.unit
  | ignore =>
      exact ⟨hs.rxOngoing, hs.full, fun q hq => hs.requests q (List.mem_of_mem_tail hq), hs.answers⟩
  | elapse n => exact ⟨hs.rxOngoing, hs.full, hs.requests, hs.answers⟩
  | arrive =>
      rw [ConfigSystem.event]
      split
      case h_1 => exact hs
      case h_2 answer answers hanswers =>
        have hfits := hs.answers
        rw [hanswers] at hfits
        obtain ⟨hhead, htail⟩ := List.forall_mem_cons.mp hfits
        obtain ⟨m, -, hlink, -, -, hongoing, hcomplete⟩ := receive_spec
          (s := { s with link := { s.link with answers := answers } }) hs.rxOngoing hhead
        refine ⟨hongoing, ?_, ?_, ?_⟩
        · rw [hcomplete]
          split
          case isTrue => exact hs.full.completed m
          case isFalse => exact hs.full
        · rw [hlink]
          exact hs.requests
        · rw [hlink]
          exact htail
  | lose =>
      exact ⟨hs.rxOngoing, hs.full, hs.requests, fun a ha => hs.answers a (List.mem_of_mem_tail ha)⟩

theorem below_event (hs : s.Wf) (hconforms : firmware.Conforms) (event : LinkEvent) :
    Below firmware s (s.event firmware event) := by
  cases event with
  | serve =>
      rw [ConfigSystem.event]
      split
      case h_1 => exact .refl s
      case h_2 request requests hrequests =>
        have hknown := hs.requests request (hrequests ▸ List.mem_cons_self)
        refine ⟨fun r hkept => ?_, rfl, rfl, rfl⟩
        have hserve := possible_serve hconforms s.link.unit requests s.link.answers
          (s.link.answers ++ [⟨request, (firmware.serve s.link.unit request).2⟩]) hknown hkept
        rwa [← hrequests] at hserve
  | ignore =>
      exact ⟨fun r _ => possible_subset_of_requests rfl (List.tail_subset _), rfl, rfl, rfl⟩
  | elapse n =>
      exact ⟨fun r hkept => possible_subset_of_requests
        (hconforms.elapse_keeps s.link.unit n hkept) (List.Subset.refl _), rfl, rfl, rfl⟩
  | arrive =>
      rw [ConfigSystem.event]
      split
      case h_1 => exact .refl s
      case h_2 answer answers hanswers =>
        have hfits := hs.answers answer (hanswers ▸ List.mem_cons_self)
        obtain ⟨m, -, hlink, hlog, huniqueData, -, hcomplete⟩ := receive_spec
          (s := { s with link := { s.link with answers := answers } }) hs.rxOngoing hfits
        refine ⟨fun r _ => ?_, huniqueData, hlog, ?_⟩
        · rw [hlink]
          exact possible_subset_of_requests rfl (List.Subset.refl _)
        · rw [hcomplete]
          split
          case isTrue => rfl
          case isFalse => rfl
  | lose => exact ⟨fun r _ => possible_subset_of_requests rfl (List.Subset.refl _), rfl, rfl, rfl⟩

end ConfigSystem

end Ep1Cf02a

end AptUsbtrx
